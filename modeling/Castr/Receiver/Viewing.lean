import Castr.Media.Decodable
import Castr.Receiver.Playout

/-! What a connection puts on the screen: the pictures that the decode thread takes while the
network loop fills the buffer, changes its mode and starts it anew. -/

namespace Castr.Receiver

open Castr.Lib
open Castr.Lib.Run
open Castr.Proto
open Castr.Media

inductive StreamEvent where
  | play (event : PlayoutEvent)
  | startStream (mode : Mode) (fps : UInt32)
  | setMode (mode : Mode)
  | requireKeyframe
  | dropped

inductive ViewAnswer where
  | shown (frame : CompleteFrame)
  | began
  | quiet
  deriving DecidableEq, Repr

def PlayoutAnswer.view : PlayoutAnswer → ViewAnswer
  | .popped _ (some frame) => .shown frame
  | _ => .quiet

namespace Playout

/-- A stream that starts gets a buffer of its own, with nothing in it. -/
def view (p : Playout) : StreamEvent → Playout × ViewAnswer
  | .play event => ((p.step event).1, (p.step event).2.view)
  | .startStream mode fps =>
      ({ p with jitter := .new mode (1000000 / (max fps 1).toUInt64) }, .began)
  | .setMode mode => ({ p with jitter := p.jitter.setMode mode }, .quiet)
  | .requireKeyframe => ({ p with jitter := p.jitter.requireKeyframe }, .quiet)
  | .dropped => ({ p with jitter := p.jitter.takeDropped.2 }, .quiet)

/-- A connection has reassemblers of its own, and the buffer as the one before it left it. -/
def connected (maxAgeUs : UInt64) (before : JitterBuffer) : Playout where
  reassembler := .new maxAgeUs
  jitter := before.flush

end Playout

def ViewAnswer.frame : ViewAnswer → Option CompleteFrame
  | .shown frame => some frame
  | _ => none

def shownOf (answers : List ViewAnswer) : List CompleteFrame := answers.filterMap ViewAnswer.frame

def follow (recent : List CompleteFrame) : ViewAnswer → List CompleteFrame
  | .shown frame => recent ++ [frame]
  | .began => []
  | .quiet => recent

/-- The pictures that were shown since the stream last started. -/
def recent (answers : List ViewAnswer) : List CompleteFrame := answers.foldl follow []

theorem recent_snoc (answers : List ViewAnswer) (answer : ViewAnswer) :
    recent (answers ++ [answer]) = follow (recent answers) answer := by
  rw [recent, List.foldl_append]
  rfl

theorem recent_shown (answers : List ViewAnswer) : recent answers ⊆ shownOf answers := by
  induction answers using List.reverseRecOn with
  | nil => exact List.Subset.refl _
  | append_singleton front answer ih =>
      rw [recent_snoc, shownOf, List.filterMap_append]
      cases answer with
      | shown frame =>
          intro f member
          rcases List.mem_append.mp member with old | new
          · exact List.mem_append_left _ (ih old)
          · exact List.mem_append_right _ new
      | began => exact List.nil_subset _
      | quiet => exact fun f member => List.mem_append_left _ (ih member)

theorem popped_some (b : JitterBuffer) (nowUs : UInt64) (f : CompleteFrame)
    (popped : (b.pop nowUs).frame = some f) :
    ∃ idx, b.frames[idx]? = some f ∧ (b.pop nowUs).buffer.frames = b.frames.drop (idx + 1) ∧
      (b.pop nowUs).buffer.lastPopped = some f.frameNumber := by
  have possible := JitterBuffer.pops b nowUs
  generalize b.pop nowUs = result at possible popped ⊢
  cases possible with
  | jump exit idx frame found keyframe jumps newest =>
      cases popped
      exact ⟨idx, found, rfl, rfl⟩
  | inOrder head rest found started follows =>
      cases popped
      exact ⟨0, by simp [found], rfl, rfl⟩
  | _ => cases popped

theorem popped_none (b : JitterBuffer) (nowUs : UInt64) (none_ : (b.pop nowUs).frame = none) :
    (b.pop nowUs).buffer.frames.Sublist b.frames ∧
      (b.pop nowUs).buffer.lastPopped = b.lastPopped ∧
      ((b.pop nowUs).buffer.needKeyframe = false → b.needKeyframe = false) := by
  have possible := JitterBuffer.pops b nowUs
  generalize b.pop nowUs = result at possible none_ ⊢
  cases possible with
  | jump exit idx frame found keyframe jumps newest => cases none_
  | inOrder head rest found started follows => cases none_
  | hold needed deltas => exact ⟨by simp [List.drop_sublist], by simp, by simp⟩
  | gapWait head rest found started gap deltas early =>
      exact ⟨by simp [List.drop_sublist], by simp, fun _ => started⟩
  | gapAbandoned head rest found started gap deltas late =>
      exact ⟨List.nil_sublist _, rfl, fun _ => started⟩
  | abandoned exit started behind => exact ⟨List.nil_sublist _, rfl, fun _ => started⟩
  | _ => exact ⟨List.Sublist.refl _, rfl, id⟩

def Done (s : FrameStream) (g : Gather.State) (f : CompleteFrame) : Prop :=
  ∃ index, s.frame index = some f ∧ g.held index = ∅ ∧ g.passed index = true

structure Viewed (s : FrameStream) (answers : List ViewAnswer) (g : Gather.State) (p : Playout) :
    Prop where
  refines : Reassembler.Refines s p.reassembler g
  queued : ∀ f ∈ p.jitter.frames, Done s g f
  sorted : p.jitter.frames.Pairwise (fun f h => s.place f.frameNumber < s.place h.frameNumber)
  shown : ∀ f ∈ shownOf answers, Done s g f
  single : (shownOf answers).Nodup
  fresh : ∀ f ∈ p.jitter.frames, f ∉ shownOf answers
  ahead : ∀ h ∈ recent answers, ∀ f ∈ p.jitter.frames,
    s.place h.frameNumber < s.place f.frameNumber
  forward : (recent answers).Pairwise (fun f h => s.place f.frameNumber < s.place h.frameNumber)
  last : ∀ h ∈ (recent answers).getLast?, p.jitter.lastPopped = some h.frameNumber
  started : p.jitter.needKeyframe = false → recent answers ≠ []

variable {s : FrameStream} {answers : List ViewAnswer} {g : Gather.State} {p : Playout}

theorem viewed_connected (s : FrameStream) (maxAgeUs : UInt64) (before : JitterBuffer) :
    Viewed s [] Gather.init (.connected maxAgeUs before) := by
  refine ⟨Reassembler.refines_init s maxAgeUs, ?_, .nil, ?_, List.nodup_nil, ?_, ?_, .nil, ?_, ?_⟩
  · simp [Playout.connected, JitterBuffer.flush]
  · simp [shownOf]
  · simp [shownOf]
  · simp [recent]
  · simp [recent]
  · simp [Playout.connected, JitterBuffer.flush]

theorem viewed_quiet (viewed : Viewed s answers g p) (next : JitterBuffer)
    (fewer : next.frames.Sublist p.jitter.frames) (same : next.lastPopped = p.jitter.lastPopped)
    (wants : next.needKeyframe = false → p.jitter.needKeyframe = false) :
    Viewed s (answers ++ [.quiet]) g { p with jitter := next } := by
  have shown : shownOf (answers ++ [.quiet]) = shownOf answers :=
    by simp [shownOf, ViewAnswer.frame]
  have kept : recent (answers ++ [.quiet]) = recent answers := recent_snoc answers .quiet
  refine ⟨viewed.refines, fun f member => viewed.queued f (fewer.subset member),
    viewed.sorted.sublist fewer, ?_, ?_, ?_, ?_, ?_, ?_, ?_⟩
  · rw [shown]
    exact viewed.shown
  · rw [shown]
    exact viewed.single
  · rw [shown]
    exact fun f member => viewed.fresh f (fewer.subset member)
  · rw [kept]
    exact fun h before f member => viewed.ahead h before f (fewer.subset member)
  · rw [kept]
    exact viewed.forward
  · rw [kept, same]
    exact viewed.last
  · rw [kept]
    exact fun began => viewed.started (wants began)

theorem viewed_began (viewed : Viewed s answers g p) (mode : Mode) (intervalUs : UInt64) :
    Viewed s (answers ++ [.began]) g { p with jitter := .new mode intervalUs } := by
  have shown : shownOf (answers ++ [.began]) = shownOf answers :=
    by simp [shownOf, ViewAnswer.frame]
  have none_ : recent (answers ++ [.began]) = [] := recent_snoc answers .began
  refine ⟨viewed.refines, by simp [JitterBuffer.new], .nil, ?_, ?_, by simp [JitterBuffer.new],
    by simp [none_], ?_, by simp [none_], by simp [JitterBuffer.new]⟩
  · rw [shown]
    exact viewed.shown
  · rw [shown]
    exact viewed.single
  · rw [none_]
    exact .nil

theorem Viewed.latest (viewed : Viewed s answers g p) (some_ : recent answers ≠ []) :
    ∃ last, (recent answers).getLast? = some last ∧
      p.jitter.lastPopped = some last.frameNumber ∧
      ∀ h ∈ recent answers, s.place h.frameNumber ≤ s.place last.frameNumber := by
  obtain ⟨front, last, split⟩ := (List.eq_nil_or_concat' (recent answers)).resolve_left some_
  have ends : (recent answers).getLast? = some last := by simp [split]
  refine ⟨last, ends, viewed.last last ends, ?_⟩
  have forward := viewed.forward
  rw [split, List.pairwise_append] at forward
  intro h before
  rw [split, List.mem_append, List.mem_singleton] at before
  rcases before with old | rfl
  · exact Nat.le_of_lt (forward.2.2 h old last (List.mem_singleton.mpr rfl))
  · exact Nat.le_refl _

theorem Done.index {f : CompleteFrame} (done : Done s g f) : ∃ index, s.frame index = some f :=
  done.imp (fun _ found => found.1)

theorem Done.inside (short : s.Short) {f : CompleteFrame} (done : Done s g f) :
    s.place f.frameNumber < s.frames.length := by
  obtain ⟨index, found, -⟩ := done
  obtain ⟨inside, same⟩ := FrameStream.place_frame short index f found
  rwa [same]

theorem Viewed.ordered (short : s.Short) (viewed : Viewed s answers g p)
    (some_ : recent answers ≠ []) : JitterBuffer.Ordered s p.jitter := by
  obtain ⟨last, ends, same, -⟩ := viewed.latest some_
  have member : last ∈ recent answers := List.mem_of_getLast? ends
  refine ⟨fun f inside => (viewed.queued f inside).index, viewed.sorted, ?_, ?_⟩
  · rintro n is
    obtain rfl := Option.some.inj (is.symm.trans same)
    exact (viewed.shown last (recent_shown answers member)).inside short
  · rintro n is f inside
    obtain rfl := Option.some.inj (is.symm.trans same)
    exact viewed.ahead last member f inside

theorem viewed_shown (viewed : Viewed s answers g p) (nowUs : UInt64)
    (f : CompleteFrame) (popped : (p.jitter.pop nowUs).frame = some f) :
    Viewed s (answers ++ [.shown f]) g { p with jitter := (p.jitter.pop nowUs).buffer } := by
  obtain ⟨idx, found, left, last⟩ := popped_some p.jitter nowUs f popped
  have here : f ∈ p.jitter.frames := List.mem_of_getElem? found
  have split := JitterBuffer.split_at p.jitter.frames idx f found
  have later (h : CompleteFrame) (member : h ∈ (p.jitter.pop nowUs).buffer.frames) :
      h ∈ p.jitter.frames ∧ s.place f.frameNumber < s.place h.frameNumber := by
    rw [left] at member
    have sorted := viewed.sorted
    rw [split, List.pairwise_append, List.pairwise_cons] at sorted
    exact ⟨List.mem_of_mem_drop member, sorted.2.1.1 h member⟩
  have shown : shownOf (answers ++ [.shown f]) = shownOf answers ++ [f] := by
    simp [shownOf, ViewAnswer.frame]
  have grown : recent (answers ++ [.shown f]) = recent answers ++ [f] := recent_snoc answers _
  refine ⟨viewed.refines, fun h member => viewed.queued h (later h member).1, ?_, ?_, ?_, ?_, ?_,
    ?_, ?_, ?_⟩
  · show List.Pairwise _ (p.jitter.pop nowUs).buffer.frames
    rw [left]
    exact viewed.sorted.sublist (List.drop_sublist _ _)
  · rw [shown, List.forall_mem_append]
    exact ⟨viewed.shown, by simpa using viewed.queued f here⟩
  · rw [shown]
    exact List.nodup_append.mpr ⟨viewed.single, List.nodup_singleton f, by
      intro h before other same
      rw [List.mem_singleton.mp same]
      rintro rfl
      exact viewed.fresh h here before⟩
  · rw [shown]
    intro h member
    have order := (later h member).2
    simp only [List.mem_append, List.mem_singleton, not_or]
    refine ⟨viewed.fresh h (later h member).1, ?_⟩
    rintro rfl
    exact absurd order (Nat.lt_irrefl _)
  · rw [grown]
    intro h before other member
    have order := (later other member).2
    rcases List.mem_append.mp before with old | new
    · exact viewed.ahead h old other (later other member).1
    · rw [List.mem_singleton.mp new]
      exact order
  · rw [grown, List.pairwise_append]
    refine ⟨viewed.forward, List.pairwise_singleton _ _, ?_⟩
    intro h old other new
    rw [List.mem_singleton.mp new]
    exact viewed.ahead h old f here
  · rw [grown]
    simpa using last
  · rw [grown]
    simp

/-- A frame of the stream that was not handed on before goes into the queue. -/
theorem viewed_pushed (short : s.Short) (viewed : Viewed s answers g p) (r : Reassembler)
    (later : Gather.State) (refines : Reassembler.Refines s r later)
    (grows : ∀ h, Done s g h → Done s later h) (f : CompleteFrame) (queuedUs : UInt64)
    (new : ¬ Done s g f) (done : Done s later f) :
    Viewed s (answers ++ [.quiet]) later ⟨r, p.jitter.push f queuedUs⟩ := by
  have shown : shownOf (answers ++ [.quiet]) = shownOf answers := by
    simp [shownOf, ViewAnswer.frame]
  have kept : recent (answers ++ [.quiet]) = recent answers := recent_snoc answers .quiet
  have inside := done.inside short
  have sorted : (p.jitter.push f queuedUs).frames.Pairwise
      (fun f h => s.place f.frameNumber < s.place h.frameNumber) := by
    unfold JitterBuffer.push
    split
    · exact viewed.sorted
    · exact JitterBuffer.ordered_insert short _ f
        (fun h member => (viewed.queued h member).inside short) inside viewed.sorted
  refine ⟨refines, ?_, sorted, ?_, ?_, ?_, ?_, ?_, ?_, ?_⟩
  · intro h member
    rcases JitterBuffer.mem_push _ f queuedUs h member with rfl | old
    · exact done
    · exact grows h (viewed.queued h old)
  · rw [shown]
    exact fun h member => grows h (viewed.shown h member)
  · rw [shown]
    exact viewed.single
  · rw [shown]
    intro h member
    rcases JitterBuffer.mem_push _ f queuedUs h member with rfl | old
    · exact fun again => new (viewed.shown h again)
    · exact viewed.fresh h old
  · rw [kept]
    intro h before other member
    have some_ : recent answers ≠ [] := List.ne_nil_of_mem before
    obtain ⟨last, -, same, top⟩ := viewed.latest some_
    by_cases old : other ∈ p.jitter.frames
    · exact viewed.ahead h before other old
    · have ordered := viewed.ordered short some_
      have entered : other = f ∧ p.jitter.stale f.frameNumber = false := by
        unfold JitterBuffer.push at member
        split at member
        · exact absurd member old
        · rename_i fresh
          exact ⟨(JitterBuffer.mem_insertFrame _ f other member).resolve_right old,
            Bool.eq_false_iff.mpr fresh⟩
      obtain ⟨rfl, fresh⟩ := entered
      have beyond : ¬ s.place other.frameNumber ≤ s.place last.frameNumber := by
        intro behind
        have stale := (ordered.stale short other.frameNumber inside).mpr ⟨_, same, behind⟩
        rw [fresh] at stale
        cases stale
      have below := top h before
      omega
  · rw [kept]
    exact viewed.forward
  · rw [kept]
    intro h last
    rw [JitterBuffer.push_lastPopped]
    exact viewed.last h last
  · rw [kept]
    intro began
    rw [JitterBuffer.push_needKeyframe] at began
    exact viewed.started began

theorem viewed_gathered (viewed : Viewed s answers g p) (r : Reassembler) (later : Gather.State)
    (refines : Reassembler.Refines s r later) (grows : ∀ h, Done s g h → Done s later h) :
    Viewed s (answers ++ [.quiet]) later ⟨r, p.jitter⟩ := by
  have quiet := viewed_quiet viewed p.jitter (List.Sublist.refl _) rfl id
  exact ⟨refines, fun f member => grows f (quiet.queued f member), quiet.sorted,
    fun f member => grows f (quiet.shown f member), quiet.single, quiet.fresh, quiet.ahead,
    quiet.forward, quiet.last, quiet.started⟩

theorem done_finish {h : CompleteFrame} (index : Nat) (done : Done s g h) :
    Done s (g.finish index) h := by
  obtain ⟨other, found, none_, passed⟩ := done
  refine ⟨other, found, ?_, Gather.finish_passed_mono g index other passed⟩
  by_cases same : other = index
  · simp [Gather.State.finish, same]
  · simpa [Gather.State.finish, same] using none_

theorem done_keep {h : CompleteFrame} (index : Nat) (pieces : Finset Nat)
    (open_ : ¬ (g.held index = ∅ ∧ g.passed index = true)) (done : Done s g h) :
    Done s (g.keep index pieces) h := by
  obtain ⟨other, found, none_, passed⟩ := done
  refine ⟨other, found, ?_, passed⟩
  have apart : other ≠ index := by
    rintro rfl
    exact open_ ⟨none_, passed⟩
  simpa [Gather.State.keep, apart] using none_

theorem done_discard {h : CompleteFrame} (dropped : Nat → Bool) (done : Done s g h) :
    Done s (g.discard dropped) h := by
  obtain ⟨other, found, none_, passed⟩ := done
  exact ⟨other, found, by simp [Gather.State.discard, none_], passed⟩

section Steps

variable (short : s.Short) (video : ∀ f ∈ s.frames, f.frame.stream = streamVideo)

include short video

theorem viewed_datagram (viewed : Viewed s answers g p) (d : Bytes) (nowUs queuedUs : UInt64)
    (drawn : d.head? = some streamVideo → Reassembler.Drawn s d) :
    ∃ later, Viewed s (answers ++ [(p.view (.play (.datagram d nowUs queuedUs))).2]) later
      (p.view (.play (.datagram d nowUs queuedUs))).1 := by
  by_cases head : d.head? = some streamVideo
  · obtain ⟨index, inside, piece, within, rfl⟩ := drawn head
    have stream := video _ (List.getElem_mem inside)
    obtain ⟨refines, answer⟩ := Reassembler.refines_piece short viewed.refines index piece nowUs
      inside within (Or.inl stream)
    generalize pushed : p.reassembler.push (s.frames[index].datagram piece) nowUs = result
      at refines answer
    obtain ⟨outcome, r⟩ := result
    simp only at answer refines
    simp only [Playout.view, Playout.step, head, if_true, pushed]
    obtain ⟨_, _, stepped⟩ | ⟨open_, _, stepped⟩ | ⟨open_, _, stepped⟩ :=
      Gather.piece_cases s.size g index piece
    · rw [stepped] at answer refines
      subst answer
      exact ⟨g, viewed_gathered viewed r g refines (fun _ => id)⟩
    · rw [stepped, Option.bind_some, s.frame_of index inside] at answer
      rw [stepped] at refines
      subst answer
      have found := s.frame_of index inside
      have new : ¬ Done s g s.frames[index].frame := by
        rintro ⟨other, same, none_, passed⟩
        obtain ⟨_, first⟩ := FrameStream.place_frame short index _ found
        obtain ⟨_, second⟩ := FrameStream.place_frame short other _ same
        rw [← second, first] at none_ passed
        exact open_ ⟨none_, passed⟩
      have done : Done s (g.finish index) s.frames[index].frame :=
        ⟨index, found, by simp [Gather.State.finish], Gather.finish_passed g index⟩
      refine ⟨g.finish index, ?_⟩
      simp only [stream, if_true]
      exact viewed_pushed short viewed r _ refines (fun _ => done_finish index) _ queuedUs new done
    · rw [stepped] at answer refines
      subst answer
      exact ⟨_, viewed_gathered viewed r _ refines (fun _ => done_keep index _ open_)⟩
  · refine ⟨g, ?_⟩
    simp only [Playout.view, Playout.step, head, if_false]
    exact viewed_gathered viewed p.reassembler g viewed.refines (fun _ => id)

theorem viewed_step (viewed : Viewed s answers g p) (event : StreamEvent)
    (drawn : ∀ d nowUs queuedUs, event = .play (.datagram d nowUs queuedUs) →
      d.head? = some streamVideo → Reassembler.Drawn s d) :
    ∃ later, Viewed s (answers ++ [(p.view event).2]) later (p.view event).1 := by
  cases event with
  | play event =>
      cases event with
      | datagram d nowUs queuedUs =>
          exact viewed_datagram short video viewed d nowUs queuedUs (drawn d nowUs queuedUs rfl)
      | tick nowUs rttUs =>
          exact ⟨_, viewed_gathered viewed _ _
            (Reassembler.refines_tick viewed.refines nowUs rttUs gapWaitUs)
            (fun _ => done_discard _)⟩
      | pop nowUs =>
          refine ⟨g, ?_⟩
          cases popped : (p.jitter.pop nowUs).frame with
          | none =>
              obtain ⟨fewer, same, wants⟩ := popped_none p.jitter nowUs popped
              have quiet := viewed_quiet viewed _ fewer same wants
              simpa [Playout.view, Playout.step, PlayoutAnswer.view, popped] using quiet
          | some f =>
              have shown := viewed_shown viewed nowUs f popped
              simpa [Playout.view, Playout.step, PlayoutAnswer.view, popped] using shown
  | startStream mode fps => exact ⟨g, viewed_began viewed mode _⟩
  | setMode mode =>
      exact ⟨g, viewed_quiet viewed _ (List.nil_sublist _) rfl (fun began => by cases began)⟩
  | requireKeyframe =>
      exact ⟨g, viewed_quiet viewed _ (List.Sublist.refl _) rfl (fun began => by cases began)⟩
  | dropped => exact ⟨g, viewed_quiet viewed _ (List.Sublist.refl _) rfl id⟩

end Steps

/-- The place of a frame among those of its packetizer. -/
def placeOf (p : Packetizer) (f : CompleteFrame) : Nat := (f.frameNumber - p.nextFrame).toNat

theorem viewed_run (short : s.Short) (video : ∀ f ∈ s.frames, f.frame.stream = streamVideo)
    (maxAgeUs : UInt64) (before : JitterBuffer) (events : List StreamEvent)
    (drawn : ∀ d nowUs queuedUs, .play (.datagram d nowUs queuedUs) ∈ events →
      d.head? = some streamVideo → Reassembler.Drawn s d) :
    ∃ g, Viewed s (outputs Playout.view (.connected maxAgeUs before) events) g
      (final Playout.view (.connected maxAgeUs before) events) := by
  apply final_induction Playout.view (.connected maxAgeUs before) events
    (fun front p => ∃ g, Viewed s (outputs Playout.view (.connected maxAgeUs before) front) g p)
  · exact ⟨_, viewed_connected s maxAgeUs before⟩
  · rintro front event back split ⟨g, viewed⟩
    rw [outputs_snoc]
    apply viewed_step short video viewed event
    rintro d nowUs queuedUs rfl head
    exact drawn d nowUs queuedUs (by simp [split]) head

theorem view_shown (q : Playout) (event : StreamEvent) (f : CompleteFrame)
    (answer : (q.view event).2 = .shown f) : ∃ nowUs, (q.jitter.pop nowUs).frame = some f := by
  cases event with
  | play event =>
      cases event with
      | datagram d nowUs queuedUs =>
          simp only [Playout.view, Playout.step] at answer
          split at answer
          · split at answer
            · split at answer <;> cases answer
            · cases answer
          · cases answer
      | tick nowUs rttUs => cases answer
      | pop nowUs =>
          simp only [Playout.view, Playout.step] at answer
          refine ⟨nowUs, ?_⟩
          cases popped : (q.jitter.pop nowUs).frame with
          | none =>
              rw [popped] at answer
              cases answer
          | some h =>
              rw [popped] at answer
              rw [ViewAnswer.shown.inj answer]
  | _ => cases answer

/-- Whatever the network does with the datagrams of a cast, and whenever the stream starts anew,
changes its mode or has to wait for a keyframe: each picture on the screen is one that was sent,
none is shown again, they come in the order of the stream, and a delta right after the frame it
refers to. -/
theorem viewed_in_order (p : Packetizer) (calls : List Packetizer.Call)
    (sent : List (CompleteFrame × List Bytes)) (produced : p.produce calls = some sent)
    (few : sent.length < 2 ^ 31) (video : ∀ frame ∈ sent, frame.1.stream = streamVideo)
    (maxAgeUs : UInt64) (before : JitterBuffer) (events : List StreamEvent)
    (drawn : ∀ d nowUs queuedUs, .play (.datagram d nowUs queuedUs) ∈ events →
      d.head? = some streamVideo → ∃ frame ∈ sent, d ∈ frame.2)
    (front back : List ViewAnswer) (f : CompleteFrame)
    (split : outputs Playout.view (.connected maxAgeUs before) events =
      front ++ .shown f :: back) :
    (sent[placeOf p f]?).map Prod.fst = some f ∧ f ∉ shownOf front ∧
      (∀ h ∈ recent front, placeOf p h < placeOf p f) ∧
      (f.keyframe = false → ∃ h, (recent front).getLast? = some h ∧
        placeOf p f = placeOf p h + 1) := by
  obtain ⟨s, start, rfl⟩ := produce_stream p calls sent produced
  have short : s.Short := by simpa [FrameStream.Short] using few
  have stream (f : Fragmented) (member : f ∈ s.frames) : f.frame.stream = streamVideo :=
    video _ (List.mem_map_of_mem member)
  have same (f : CompleteFrame) : placeOf p f = s.place f.frameNumber := by
    rw [placeOf, ← start]
    rfl
  obtain ⟨past, event, later, rfl, rfl, answer⟩ := outputs_split Playout.view _ events front back _
    split
  obtain ⟨g, viewed⟩ := viewed_run short stream maxAgeUs before past (fun d nowUs queuedUs member
    head => Reassembler.drawn_of_sent s d (drawn d nowUs queuedUs (by simp [member]) head))
  generalize outputs Playout.view (.connected maxAgeUs before) past = answers at viewed ⊢
  generalize final Playout.view (.connected maxAgeUs before) past = q at viewed answer
  obtain ⟨nowUs, popped⟩ := view_shown q event f answer
  obtain ⟨idx, found, -, -⟩ := popped_some q.jitter nowUs f popped
  have here : f ∈ q.jitter.frames := List.mem_of_getElem? found
  obtain ⟨index, is⟩ := (viewed.queued f here).index
  obtain ⟨inside, at_⟩ := FrameStream.place_frame short index f is
  simp only [same]
  refine ⟨?_, viewed.fresh f here, fun h member => viewed.ahead h member f here, fun delta => ?_⟩
  · rw [at_, List.getElem?_map, Option.map_map]
    exact is
  · obtain ⟨started, follows⟩ := JitterBuffer.popped_delta q.jitter nowUs f popped delta
    have some_ := viewed.started started
    obtain ⟨last, ends, out, -⟩ := viewed.latest some_
    have ordered := viewed.ordered short some_
    exact ⟨last, ends, by rw [follows _ out, FrameStream.place_succ short _ (ordered.last _ out)]⟩

/-- A keyframe and two deltas, the second of which overtakes a half of the first. -/
def viewedCalls : List Packetizer.Call :=
  [⟨streamVideo, true, 0, [7], 21⟩, ⟨streamVideo, false, 33333, [8, 8], 21⟩,
    ⟨streamVideo, false, 66666, [9], 21⟩]

def viewedSent : List (CompleteFrame × List Bytes) :=
  (Packetizer.new.produce viewedCalls).getD []

def viewedDatagram (index piece : Nat) : Bytes :=
  (viewedSent[index]?).elim [] (fun sent => sent.2.getD piece [])

def viewedEvents : List StreamEvent :=
  .startStream .game 30 ::
    [.datagram (viewedDatagram 0 0) 10 11, .pop 12, .datagram (viewedDatagram 1 0) 20 21,
      .datagram (viewedDatagram 2 0) 22 23, .pop 24, .datagram (viewedDatagram 1 1) 30 31,
      .pop 32].map .play

def viewedFront : List ViewAnswer :=
  [.began, .quiet, .shown ⟨0, 0, 0, true, [7]⟩, .quiet, .quiet, .quiet, .quiet]

theorem viewed_drawn (d : Bytes) (nowUs queuedUs : UInt64)
    (member : .play (.datagram d nowUs queuedUs) ∈ viewedEvents)
    (_head : d.head? = some streamVideo) : ∃ frame ∈ viewedSent, d ∈ frame.2 := by
  have each : ∀ index < 3, ∀ piece < (if index = 1 then 2 else 1),
      ∃ frame ∈ viewedSent, viewedDatagram index piece ∈ frame.2 := by decide
  simp only [viewedEvents, List.map_cons, List.map_nil, List.mem_cons, StreamEvent.play.injEq,
    PlayoutEvent.datagram.injEq, reduceCtorEq, List.not_mem_nil, false_or, or_false] at member
  rcases member with ⟨rfl, -⟩ | ⟨rfl, -⟩ | ⟨rfl, -⟩ | ⟨rfl, -⟩
  · exact each 0 (by decide) 0 (by decide)
  · exact each 1 (by decide) 0 (by decide)
  · exact each 2 (by decide) 0 (by decide)
  · exact each 1 (by decide) 1 (by decide)

theorem viewed_in_order_overtaken : ∃ h, (recent viewedFront).getLast? = some h ∧
    placeOf .new ⟨0, 1, 33333, false, [8, 8]⟩ = placeOf .new h + 1 :=
  (viewed_in_order .new viewedCalls viewedSent (by decide) (by decide) (by decide) 500000
    (.new .quality 33333) viewedEvents viewed_drawn viewedFront [] ⟨0, 1, 33333, false, [8, 8]⟩
    (by decide +kernel)).2.2.2 rfl

end Castr.Receiver
