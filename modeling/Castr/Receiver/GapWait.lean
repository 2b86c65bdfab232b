import Castr.Receiver.Playout

/-! Why the gap branch gives up although every repair comes within the gap wait: the frame it
waits for had been there, and the buffer had thrown it away. -/

namespace Castr.Receiver

open Castr.Lib.Run
open Castr.Lib.Word (saturatingSub saturatingSub_toNat)
open Castr.Proto
open Castr.Media
open Castr.Media.JitterBuffer (Ordered pops ordered_pop ordered_push pop_keeps gapBefore)

/-- Of each frame a datagram arrives before any of a newer frame. -/
def Led (sent : List (CompleteFrame × List Bytes)) (events : List PlayoutEvent) : Prop :=
  ∀ k : Fin events.length, ∀ newer : Fin sent.length,
    (∃ d ∈ (events.get k).datagram?, d ∈ (sent.get newer).2) →
    ∀ older : Fin sent.length, older < newer → ∃ d ∈ (sent.get older).2, d ∈
      received (events.take k)

/-- What happens later than the gap wait after a datagram arrived finds its frame complete. -/
def Repaired (start : Playout) (sent : List (CompleteFrame × List Bytes))
    (events : List PlayoutEvent) : Prop :=
  ∀ i k : Fin events.length, ∀ frame : Fin sent.length,
    (∃ d ∈ (events.get i).datagram?, d ∈ (sent.get frame).2) →
    (events.get i).nowUs.toNat + gapWaitUs.toNat < (events.get k).nowUs.toNat →
    (sent.get frame).1 ∈ completed start (events.take k)

/-- Some pop threw `f` out of the queue without handing a frame out. -/
def Discarded (start : Playout) (events : List PlayoutEvent) (f : CompleteFrame) : Prop :=
  ∃ front nowUs back, events = front ++ .pop nowUs :: back ∧
    f ∈ (final Playout.step start front).jitter.frames ∧
    ((final Playout.step start front).jitter.pop nowUs).frame = none ∧
    f ∉ ((final Playout.step start front).jitter.pop nowUs).buffer.frames

theorem discarded_snoc (start : Playout) (front : List PlayoutEvent) (event : PlayoutEvent)
    (f : CompleteFrame) (before : Discarded start front f) :
    Discarded start (front ++ [event]) f := by
  obtain ⟨earlier, nowUs, later, rfl, rest⟩ := before
  exact ⟨earlier, nowUs, later ++ [event], by simp, rest⟩

theorem mem_received (events : List PlayoutEvent) (d : Bytes) :
    d ∈ received events ↔ ∃ nowUs queuedUs, .datagram d nowUs queuedUs ∈ events := by
  unfold received
  rw [List.mem_filterMap]
  constructor
  · rintro ⟨event, member, same⟩
    cases event with
    | datagram other nowUs queuedUs =>
        cases same
        exact ⟨nowUs, queuedUs, member⟩
    | tick nowUs rttUs => cases same
    | pop nowUs => cases same
  · rintro ⟨nowUs, queuedUs, member⟩
    exact ⟨_, member, rfl⟩

structure Tracks (s : FrameStream) (start : Playout) (front : List PlayoutEvent) (p : Playout) :
    Prop where
  refines : ∃ g, Reassembler.Refines s p.reassembler g
  ordered : Ordered s p.jitter
  arrived : ∀ c ∈ completed start front, ∃ (index : Nat) (inside : index < s.frames.length),
    s.frames[index].frame = c ∧ ∃ d ∈ s.frames[index].datagrams, d ∈ received front
  queued : ∀ f ∈ p.jitter.frames, f ∈ completed start front
  accounted : ∀ c ∈ completed start front, c ∈ p.jitter.frames ∨
    (∃ n, p.jitter.lastPopped = some n ∧ s.place c.frameNumber ≤ s.place n) ∨
    Discarded start front c
  waiting : ∀ since n, p.jitter.gapSince = some since → p.jitter.needKeyframe = false →
    p.jitter.lastPopped = some n → ∃ inside : s.place n + 1 < s.frames.length,
      ∃ d nowUs queuedUs, d ∈ s.frames[s.place n + 1].datagrams ∧
        .datagram d nowUs queuedUs ∈ front ∧ nowUs ≤ since

section Run

variable {s : FrameStream} (short : s.Short)
  (video : ∀ f ∈ s.frames, f.frame.stream = streamVideo)
  (start : Playout) (events : List PlayoutEvent)
  (drawn : ∀ d ∈ received events, Reassembler.Drawn s d)
  (times : events.Pairwise (fun first second => first.nowUs ≤ second.nowUs))
  (led : Led (s.frames.map (fun f => (f.frame, f.datagrams))) events)

include led in
theorem led_prefix (front back : List PlayoutEvent) (split : events = front ++ back)
    (older newer : Nat) (inside : newer < s.frames.length) (less : older < newer)
    (d : Bytes) (own : d ∈ s.frames[newer].datagrams) (there : d ∈ received front) :
    ∃ e ∈ s.frames[older].datagrams, e ∈ received front := by
  obtain ⟨nowUs, queuedUs, member⟩ := (mem_received front d).mp there
  obtain ⟨before, after, rfl⟩ := List.append_of_mem member
  subst split
  have place : before.length < (before ++ .datagram d nowUs queuedUs :: after ++ back).length := by
    simp
  have olderFirst := led ⟨before.length, place⟩ ⟨newer, by simpa using inside⟩
    ⟨d, by simp [PlayoutEvent.datagram?], by simpa using own⟩
    ⟨older, by simp; omega⟩ (by simpa using less)
  simp only [List.get_eq_getElem, List.getElem_map, List.append_assoc, List.take_left']
    at olderFirst
  obtain ⟨e, mine, seen⟩ := olderFirst
  exact ⟨e, mine, received_prefix before _ e seen⟩

theorem tracks_queue {front : List PlayoutEvent} {p next : Playout} {event : PlayoutEvent}
    (tracks : Tracks s start front p) (same : next.jitter = p.jitter)
    (refines : ∃ g, Reassembler.Refines s next.reassembler g)
    (nothing : completed start (front ++ [event]) = completed start front) :
    Tracks s start (front ++ [event]) next := by
  refine ⟨refines, same ▸ tracks.ordered, ?_, ?_, ?_, ?_⟩
  · intro c member
    rw [nothing] at member
    obtain ⟨index, inside, frame, d, own, there⟩ := tracks.arrived c member
    exact ⟨index, inside, frame, d, own, received_prefix front _ d there⟩
  · rw [nothing, same]
    exact tracks.queued
  · intro c member
    rw [nothing] at member
    rw [same]
    rcases tracks.accounted c member with kept | passed | gone
    · exact Or.inl kept
    · exact Or.inr (Or.inl passed)
    · exact Or.inr (Or.inr (discarded_snoc start front event c gone))
  · intro since n waits started last
    rw [same] at waits started last
    obtain ⟨inside, d, nowUs, queuedUs, own, member, early⟩ :=
      tracks.waiting since n waits started last
    exact ⟨inside, d, nowUs, queuedUs, own, List.mem_append_left _ member, early⟩

include short video drawn in
theorem tracks_datagram (front back : List PlayoutEvent) (d : Bytes) (nowUs queuedUs : UInt64)
    (split : events = front ++ .datagram d nowUs queuedUs :: back)
    (tracks : Tracks s start front (final Playout.step start front)) :
    Tracks s start (front ++ [.datagram d nowUs queuedUs])
      ((final Playout.step start front).step (.datagram d nowUs queuedUs)).1 := by
  have here : d ∈ received events := by
    rw [mem_received, split]
    exact ⟨nowUs, queuedUs, by simp⟩
  obtain ⟨index, inside, piece, within, rfl⟩ := drawn d here
  obtain ⟨g, refines⟩ := tracks.refines
  have known : KnownStream s.frames[index].frame.stream :=
    Or.inl (video _ (List.getElem_mem inside))
  have next : ∃ g, Reassembler.Refines s ((final Playout.step start front).step
      (.datagram (s.frames[index].datagram piece) nowUs queuedUs)).1.reassembler g := by
    rw [step_reassembler]
    simp only [PlayoutEvent.op?, datagram_video video index piece inside, if_true,
      Option.toList_some, final_cons, final_nil]
    exact ⟨_, (Reassembler.refines_piece short refines index piece nowUs inside within known).1⟩
  rcases datagram_cases short video _ g refines index piece inside within nowUs queuedUs with
    ⟨same, nothing⟩ | ⟨pushed, completes⟩
  · exact tracks_queue start tracks same next (by rw [completed_snoc, nothing]; simp)
  · have grown :
      completed start (front ++ [.datagram (s.frames[index].datagram piece) nowUs queuedUs]) =
        completed start front ++ [s.frames[index].frame] := by
      rw [completed_snoc, completes]
      rfl
    have found := s.frame_of index inside
    obtain ⟨_, place⟩ := FrameStream.place_frame short index _ found
    refine ⟨next, ?_, ?_, ?_, ?_, ?_⟩
    · rw [pushed]
      exact ordered_push short _ tracks.ordered _ queuedUs index found
    · intro c member
      rw [grown, List.mem_append] at member
      rcases member with before | now
      · obtain ⟨other, bound, frame, e, own, there⟩ := tracks.arrived c before
        exact ⟨other, bound, frame, e, own, received_prefix front _ e there⟩
      · refine ⟨index, inside, (List.mem_singleton.mp now).symm,
          s.frames[index].datagram piece, ?_, ?_⟩
        · exact (Fragmented.mem_datagrams _ _).mpr ⟨piece, within, rfl⟩
        · rw [received_snoc]
          simp [PlayoutEvent.datagram?]
    · intro f member
      rw [pushed] at member
      rw [grown]
      rcases JitterBuffer.mem_push _ _ _ f member with rfl | before
      · simp
      · exact List.mem_append_left _ (tracks.queued f before)
    · intro c member
      rw [pushed, JitterBuffer.push_lastPopped]
      rw [grown, List.mem_append] at member
      rcases member with before | now
      · rcases tracks.accounted c before with kept | passed | gone
        · exact Or.inl (JitterBuffer.push_keeps _ _ _ c kept)
        · exact Or.inr (Or.inl passed)
        · exact Or.inr (Or.inr (discarded_snoc start front _ c gone))
      · obtain rfl := List.mem_singleton.mp now
        cases old : (final Playout.step start front).jitter.stale
            s.frames[index].frame.frameNumber with
        | true =>
            exact Or.inr (Or.inl ((tracks.ordered.stale short _ (by rwa [place])).mp old))
        | false =>
            exact Or.inl (JitterBuffer.push_enters short _ tracks.ordered _ queuedUs
              index found old)
    · intro since n waits started last
      rw [pushed] at waits started last
      rw [JitterBuffer.push_needKeyframe] at started
      rw [JitterBuffer.push_lastPopped] at last
      rw [JitterBuffer.push_gapSince] at waits
      obtain ⟨bound, e, earlyUs, pushUs, own, member, early⟩ :=
        tracks.waiting since n waits started last
      exact ⟨bound, e, earlyUs, pushUs, own, List.mem_append_left _ member, early⟩

theorem tracks_tick (front : List PlayoutEvent) (nowUs rttUs : UInt64)
    (tracks : Tracks s start front (final Playout.step start front)) :
    Tracks s start (front ++ [.tick nowUs rttUs])
      ((final Playout.step start front).step (.tick nowUs rttUs)).1 := by
  obtain ⟨g, refines⟩ := tracks.refines
  refine tracks_queue start tracks rfl ⟨_, Reassembler.refines_tick refines nowUs rttUs
    gapWaitUs⟩ ?_
  rw [completed_snoc]
  exact List.append_nil _

include times in
theorem times_prefix (front back : List PlayoutEvent) (nowUs : UInt64)
    (split : events = front ++ .pop nowUs :: back) (event : PlayoutEvent) (member : event ∈ front) :
    event.nowUs ≤ nowUs := by
  rw [split, List.pairwise_append] at times
  exact times.2.2 event member _ List.mem_cons_self

include short led times in
theorem gap_begun (front back : List PlayoutEvent) (nowUs : UInt64)
    (split : events = front ++ .pop nowUs :: back)
    (tracks : Tracks s start front (final Playout.step start front))
    (head : CompleteFrame) (rest : List CompleteFrame)
    (found : (final Playout.step start front).jitter.frames = head :: rest)
    (gap : (final Playout.step start front).jitter.gapBefore head = true)
    (n : UInt32) (last : (final Playout.step start front).jitter.lastPopped = some n) :
    ∃ inside : s.place n + 1 < s.frames.length, ∃ d earlierUs queuedUs,
      d ∈ s.frames[s.place n + 1].datagrams ∧ .datagram d earlierUs queuedUs ∈ front ∧
        earlierUs ≤ nowUs := by
  obtain ⟨m, same, before⟩ := JitterBuffer.gap_place short _ tracks.ordered head rest found gap
  rw [last] at same
  cases same
  obtain ⟨index, inside, frame, d, own, there⟩ :=
    tracks.arrived head (tracks.queued head (by simp [found]))
  obtain ⟨_, place⟩ := FrameStream.place_frame short index _ (s.frame_of index inside)
  rw [frame] at place
  rw [place] at before
  obtain ⟨e, mine, seen⟩ := led_prefix events led front _ split (s.place n + 1) index inside before
    d own there
  obtain ⟨earlierUs, queuedUs, member⟩ := (mem_received front e).mp seen
  exact ⟨by omega, e, earlierUs, queuedUs, mine, member,
    times_prefix events times front back nowUs split _ member⟩

include short led times in
theorem tracks_pop (front back : List PlayoutEvent) (nowUs : UInt64)
    (split : events = front ++ .pop nowUs :: back)
    (tracks : Tracks s start front (final Playout.step start front)) :
    Tracks s start (front ++ [.pop nowUs])
      ((final Playout.step start front).step (.pop nowUs)).1 := by
  have nothing : completed start (front ++ [.pop nowUs]) = completed start front := by
    rw [completed_snoc]
    exact List.append_nil _
  have later (n : UInt32) (waiting : ∃ inside : s.place n + 1 < s.frames.length,
      ∃ d earlierUs queuedUs, d ∈ s.frames[s.place n + 1].datagrams ∧
        .datagram d earlierUs queuedUs ∈ front ∧ earlierUs ≤ nowUs) (since : UInt64)
      (reached : nowUs ≤ since) : ∃ inside : s.place n + 1 < s.frames.length,
      ∃ d earlierUs queuedUs, d ∈ s.frames[s.place n + 1].datagrams ∧
        .datagram d earlierUs queuedUs ∈ front ++ [.pop nowUs] ∧ earlierUs ≤ since := by
    obtain ⟨inside, d, earlierUs, queuedUs, own, member, early⟩ := waiting
    exact ⟨inside, d, earlierUs, queuedUs, own, List.mem_append_left _ member,
      UInt64.le_trans early reached⟩
  have kept (since : UInt64) (n : UInt32)
      (waits : (final Playout.step start front).jitter.gapSince = some since)
      (started : (final Playout.step start front).jitter.needKeyframe = false)
      (last : (final Playout.step start front).jitter.lastPopped = some n) :
      ∃ inside : s.place n + 1 < s.frames.length, ∃ d earlierUs queuedUs,
        d ∈ s.frames[s.place n + 1].datagrams ∧
          .datagram d earlierUs queuedUs ∈ front ++ [.pop nowUs] ∧ earlierUs ≤ since := by
    obtain ⟨inside, d, earlierUs, queuedUs, own, member, early⟩ :=
      tracks.waiting since n waits started last
    exact ⟨inside, d, earlierUs, queuedUs, own, List.mem_append_left _ member, early⟩
  refine ⟨tracks.refines, ordered_pop short _ tracks.ordered nowUs, ?_, ?_, ?_, ?_⟩
  · intro c member
    rw [nothing] at member
    obtain ⟨index, inside, frame, d, own, there⟩ := tracks.arrived c member
    exact ⟨index, inside, frame, d, own, received_prefix front _ d there⟩
  · intro f member
    rw [nothing]
    exact tracks.queued f (JitterBuffer.pop_subset _ nowUs f member)
  · intro c member
    rw [nothing] at member
    rcases tracks.accounted c member with present | ⟨n, last, passed⟩ | gone
    · rcases pop_keeps _ tracks.ordered nowUs c present with kept | passed | ⟨none, gone⟩
      · exact Or.inl kept
      · exact Or.inr (Or.inl passed)
      · exact Or.inr (Or.inr ⟨front, nowUs, [], rfl, present, none, gone⟩)
    · obtain ⟨m, now, forward⟩ := JitterBuffer.pop_forward _ tracks.ordered nowUs n last
      exact Or.inr (Or.inl ⟨m, now, Nat.le_trans passed forward⟩)
    · exact Or.inr (Or.inr (discarded_snoc start front _ c gone))
  · intro since n waits started last
    have begun := gap_begun short start events times led front back nowUs split tracks
    have possible := pops (final Playout.step start front).jitter nowUs
    simp only [Playout.step] at waits started last
    generalize (final Playout.step start front).jitter.pop nowUs =
      result at possible waits started last
    cases possible with
    | hold needed deltas =>
        rw [JitterBuffer.trimWaiting_needKeyframe, needed] at started
        cases started
    | jump exit idx frame found keyframe jumps newest => cases waits
    | inOrder head rest found began follows => cases waits
    | gapWait head rest found began gap deltas early =>
        rw [JitterBuffer.trimWaiting_lastPopped] at last
        rw [JitterBuffer.trimWaiting_gapSince, Option.some.injEq] at waits
        cases old : (final Playout.step start front).jitter.gapSince with
        | none =>
            rw [old, Option.getD_none] at waits
            exact later n (begun head rest found gap n last) since (waits ▸ UInt64.le_refl _)
        | some earlier =>
            rw [old, Option.getD_some] at waits
            exact kept since n (waits ▸ old) began last
    | gapAbandoned head rest found began gap deltas late => cases started
    | abandoned exit began behind => cases started
    | _ => exact kept since n waits started last

end Run

theorem tracks_run {s : FrameStream} (short : s.Short)
    (video : ∀ f ∈ s.frames, f.frame.stream = streamVideo) (maxAgeUs : UInt64) (mode : Mode)
    (intervalUs : UInt64) (events : List PlayoutEvent)
    (drawn : ∀ d ∈ received events, Reassembler.Drawn s d)
    (times : events.Pairwise (fun first second => first.nowUs ≤ second.nowUs))
    (led : Led (s.frames.map (fun f => (f.frame, f.datagrams))) events)
    (front back : List PlayoutEvent) (split : events = front ++ back) :
    Tracks s (Playout.new maxAgeUs mode intervalUs) front
      (final Playout.step (Playout.new maxAgeUs mode intervalUs) front) := by
  apply prefix_induction Playout.step (Playout.new maxAgeUs mode intervalUs) events
    (Tracks s (Playout.new maxAgeUs mode intervalUs)) _ _ front back split
  · refine ⟨⟨_, Reassembler.refines_init s maxAgeUs⟩, JitterBuffer.ordered_new s mode intervalUs,
      ?_, ?_, ?_, ?_⟩
    · simp [completed]
    · simp [Playout.new, JitterBuffer.new]
    · simp [completed]
    · simp [Playout.new, JitterBuffer.new]
  · intro front event back split tracks
    cases event with
    | datagram d nowUs queuedUs =>
        exact tracks_datagram short video _ events drawn front back d nowUs queuedUs split tracks
    | tick nowUs rttUs => exact tracks_tick _ front nowUs rttUs tracks
    | pop nowUs => exact tracks_pop short _ events times led front back nowUs split tracks

/-- With every frame begun before its successors and repaired within the gap wait, the gap
branch gives up only on a frame that was there and that the buffer had thrown away. -/
theorem gap_abandons_discarded (p : Packetizer) (calls : List Packetizer.Call)
    (sent : List (CompleteFrame × List Bytes)) (produced : p.produce calls = some sent)
    (few : sent.length < 2 ^ 31) (video : ∀ frame ∈ sent, frame.1.stream = streamVideo)
    (maxAgeUs : UInt64) (mode : Mode) (intervalUs : UInt64) (events : List PlayoutEvent)
    (drawn : ∀ d ∈ received events, ∃ frame ∈ sent, d ∈ frame.2)
    (times : events.Pairwise (fun first second => first.nowUs ≤ second.nowUs))
    (led : Led sent events)
    (repaired : Repaired (Playout.new maxAgeUs mode intervalUs) sent events)
    (front back : List PlayoutEvent) (nowUs : UInt64)
    (split : events = front ++ .pop nowUs :: back)
    (abandons : ((final Playout.step (Playout.new maxAgeUs mode intervalUs) front).jitter.pop
      nowUs).exit = .gapAbandoned) :
    ∃ last f,
      (final Playout.step (Playout.new maxAgeUs mode intervalUs) front).jitter.lastPopped =
        some last ∧
      f.frameNumber = last + 1 ∧
      f ∈ completed (Playout.new maxAgeUs mode intervalUs) front ∧
      Discarded (Playout.new maxAgeUs mode intervalUs) front f := by
  obtain ⟨s, _, rfl⟩ := produce_stream p calls sent produced
  have short : s.Short := by simpa [FrameStream.Short] using few
  have stream (f : Fragmented) (member : f ∈ s.frames) : f.frame.stream = streamVideo :=
    video _ (List.mem_map_of_mem member)
  have tracks := tracks_run short stream maxAgeUs mode intervalUs events
    (fun d member => Reassembler.drawn_of_sent s d (drawn d member)) times led front _ split
  generalize start : Playout.new maxAgeUs mode intervalUs = p at *
  have possible := pops (final Playout.step p front).jitter nowUs
  generalize (final Playout.step p front).jitter.pop nowUs = result at possible abandons
  cases possible with
  | gapAbandoned head rest found started gap deltas late =>
      obtain ⟨n, last, before⟩ := JitterBuffer.gap_place short _ tracks.ordered head rest found gap
      obtain ⟨since, waits⟩ : ∃ since, (final Playout.step p front).jitter.gapSince =
        some since := by
        cases waits : (final Playout.step p front).jitter.gapSince with
        | none => simp [waits, UInt64.lt_iff_toNat_lt] at late
        | some since => exact ⟨since, rfl⟩
      obtain ⟨inside, d, arrivedUs, queuedUs, own, member, early⟩ :=
        tracks.waiting since n waits started last
      rw [waits, Option.getD_some, UInt64.lt_iff_toNat_lt, saturatingSub_toNat] at late
      rw [UInt64.le_iff_toNat_le] at early
      have done : s.frames[s.place n + 1].frame ∈ completed p front := by
        obtain ⟨i, bound, place⟩ := List.mem_iff_getElem.mp member
        have now := repaired ⟨i, by simp [split]; omega⟩ ⟨front.length, by simp [split]⟩
          ⟨s.place n + 1, by simpa using inside⟩
        simp only [split, List.get_eq_getElem, List.getElem_append_left bound, place,
          PlayoutEvent.datagram?, Option.mem_def, Option.some.injEq, exists_eq_left',
          List.getElem_map, PlayoutEvent.nowUs, List.getElem_append_right (Nat.le_refl _),
          Nat.sub_self, List.getElem_cons_zero, List.take_left'] at now
        exact now own (by omega)
      have here : s.place s.frames[s.place n + 1].frame.frameNumber = s.place n + 1 :=
        (FrameStream.place_frame short _ _ (s.frame_of _ inside)).2
      have number : s.frames[s.place n + 1].frame.frameNumber = n + 1 := by
        apply FrameStream.place_injective
        rw [FrameStream.place_succ short n (tracks.ordered.last n last), here]
      refine ⟨n, _, last, number, done, ?_⟩
      rcases tracks.accounted _ done with present | ⟨m, same, passed⟩ | gone
      · have sorted := tracks.ordered.sorted
        rw [found] at present sorted
        rcases List.mem_cons.mp present with same | later
        · rw [← same] at before
          omega
        · have order := (List.pairwise_cons.mp sorted).1 _ later
          omega
      · rw [last] at same
        cases same
        omega
      · exact gone
  | jump exit idx frame found keyframe jumps newest =>
      rcases jumps with ⟨named, _⟩ | ⟨named, _⟩
      · rw [named] at abandons
        cases abandons
      · cases abandons
        simp at named
  | abandoned exit started behind =>
      cases abandons
      simp at behind
  | _ => cases abandons

/-- Two keyframes, the second one in two fragments, with deltas around it. -/
def stalledCalls : List Packetizer.Call :=
  [⟨streamVideo, true, 0, [10], 21⟩, ⟨streamVideo, false, 33333, [11], 21⟩,
    ⟨streamVideo, false, 66666, [12], 21⟩, ⟨streamVideo, true, 99999, [13, 14], 21⟩,
    ⟨streamVideo, false, 133332, [15], 21⟩, ⟨streamVideo, false, 166665, [16], 21⟩]

def stalledSent : List (CompleteFrame × List Bytes) :=
  (Packetizer.new.produce stalledCalls).getD []

def stalledDatagram (frame piece : Nat) : Bytes :=
  (stalledSent[frame]?).elim [] (fun sent => sent.2.getD piece [])

/-- The link stalls for 700 ms; what it held back then comes at once, but for the second
fragment of the keyframe, which is repaired 10 ms later. By then the late queue has been
abandoned, and with it the delta after that keyframe. -/
def stalledFront : List PlayoutEvent :=
  [.datagram (stalledDatagram 0 0) 0 0, .pop 0,
    .datagram (stalledDatagram 1 0) 700000 700000, .datagram (stalledDatagram 2 0) 700000 700000,
    .datagram (stalledDatagram 3 0) 700000 700000, .datagram (stalledDatagram 4 0) 700000 700000,
    .pop 700001, .tick 700002 5000, .datagram (stalledDatagram 3 1) 710000 710000, .pop 710000,
    .datagram (stalledDatagram 5 0) 720000 720000, .pop 720000]

def stalledEvents : List PlayoutEvent := stalledFront ++ [.pop 880001]

def stalledStart : Playout := Playout.new 500000 .quality 33333

theorem stalled_drawn : ∀ d ∈ received stalledEvents, ∃ frame ∈ stalledSent, d ∈ frame.2 := by
  decide +kernel

theorem stalled_times :
    stalledEvents.Pairwise (fun first second => first.nowUs ≤ second.nowUs) := by
  decide

theorem stalled_led : Led stalledSent stalledEvents := by
  unfold Led
  decide +kernel

theorem stalled_repaired : Repaired stalledStart stalledSent stalledEvents := by
  unfold Repaired
  decide +kernel

theorem stalled_abandons :
    ((final Playout.step stalledStart stalledFront).jitter.pop 880001).exit = .gapAbandoned := by
  decide +kernel

/-- The predecessor is missing for good although every frame was completed in time. -/
theorem completed_predecessor_abandoned :
    Packetizer.new.produce stalledCalls = some stalledSent ∧
    (∀ d ∈ received stalledEvents, ∃ frame ∈ stalledSent, d ∈ frame.2) ∧
    stalledEvents.Pairwise (fun first second => first.nowUs ≤ second.nowUs) ∧
    Led stalledSent stalledEvents ∧
    Repaired stalledStart stalledSent stalledEvents ∧
    stalledEvents = stalledFront ++ .pop 880001 :: [] ∧
    ((final Playout.step stalledStart stalledFront).jitter.pop 880001).exit = .gapAbandoned :=
  ⟨by decide, stalled_drawn, stalled_times, stalled_led, stalled_repaired, rfl, stalled_abandons⟩

theorem gap_abandons_discarded_stalled : ∃ last f,
    (final Playout.step stalledStart stalledFront).jitter.lastPopped = some last ∧
    f.frameNumber = last + 1 ∧ f ∈ completed stalledStart stalledFront ∧
    Discarded stalledStart stalledFront f :=
  gap_abandons_discarded Packetizer.new stalledCalls stalledSent (by decide) (by decide) (by decide)
    500000 .quality 33333 stalledEvents stalled_drawn stalled_times stalled_led stalled_repaired
    stalledFront [] 880001 rfl stalled_abandons

end Castr.Receiver
