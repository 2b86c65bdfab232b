import Castr.Lib.Anchored

/-! The audio thread: what it takes from the capture in a drain, the frames it cuts from that, and
the times it gives them. Times are microseconds since the cast began. -/

namespace Castr.Sender

open Castr.Lib

def sampleRate : Nat := 48000
def channels : Nat := 2
def frameSamples : Nat := 480
def frameInterleaved : Nat := frameSamples * channels

structure FrameChunker where
  buf : List Int16
  deriving DecidableEq, Repr

namespace FrameChunker

def new : FrameChunker := ⟨[]⟩

def push (chunker : FrameChunker) (samples : List Int16) : FrameChunker :=
  ⟨chunker.buf ++ samples⟩

def nextFrame (chunker : FrameChunker) : Option (List Int16 × FrameChunker) :=
  if chunker.buf.length < frameInterleaved then none
  else some (chunker.buf.take frameInterleaved, ⟨chunker.buf.drop frameInterleaved⟩)

end FrameChunker

/-- The rest of the times of a drain, from the `i`th on. -/
def stampsFrom (base : Nat) (last : Option Nat) (i : Nat) : Nat → List Nat
  | 0 => []
  | left + 1 =>
      let ts := base + i * 10000
      let ts := match last with
        | some l => max ts (l + 10000)
        | none => ts
      ts :: stampsFrom base (some ts) (i + 1) left

/-- When the oldest of the samples in the queue was captured. -/
def anchor (nowUs bufferedSamplesPerChannel : Nat) : Nat :=
  nowUs - bufferedSamplesPerChannel * 1000000 / sampleRate

def audioFrameTimestamps (nowUs bufferedSamplesPerChannel framesOut : Nat)
    (lastTs : Option Nat) : List Nat :=
  stampsFrom (anchor nowUs bufferedSamplesPerChannel) lastTs 0 framesOut

/-- What becomes of a frame: its packet is sent, the encoder refuses it, or nobody takes packets
any more. -/
inductive Fate where
  | sent (packet : List UInt8)
  | refused
  | closed (packet : List UInt8)
  deriving DecidableEq, Repr

structure AudioThread where
  chunker : FrameChunker
  queuedInterleaved : Nat
  lastTs : Option Nat
  deriving DecidableEq, Repr

/-- A frame that was cut and given its time, and the thread after it. -/
structure Emitted where
  tsUs : Nat
  frame : List Int16
  fate : Fate
  after : AudioThread
  deriving DecidableEq, Repr

namespace AudioThread

def new : AudioThread := ⟨.new, 0, none⟩

def takeFrame (s : AudioThread) (now : Nat) (stamps : List Nat) (fate : Fate) : Option Emitted :=
  s.chunker.nextFrame.map (fun (frame, rest) =>
    let ts := match stamps with
      | t :: _ => t
      | [] => (s.lastTs.map (· + 10000)).getD now
    ⟨ts, frame, fate, ⟨rest, s.queuedInterleaved - frame.length, some ts⟩⟩)

theorem takeFrame_shorter {s : AudioThread} {now : Nat} {stamps : List Nat} {fate : Fate}
    {emitted : Emitted} (taken : s.takeFrame now stamps fate = some emitted) :
    emitted.after.chunker.buf.length < s.chunker.buf.length := by
  obtain ⟨⟨frame, rest⟩, cut, rfl⟩ := Option.map_eq_some_iff.mp taken
  unfold FrameChunker.nextFrame at cut
  split at cut
  · cases cut
  · rename_i enough
    cases cut
    simp only [List.length_drop]
    have : 0 < frameInterleaved := by decide
    omega

/-- The loop over the frames of a drain, `fate` saying what becomes of each. It is left for good
where nobody takes packets any more. -/
def takeFrames (now : Nat) (fate : Nat → Fate) (s : AudioThread) (stamps : List Nat) (i : Nat) :
    List Emitted :=
  match _taken : s.takeFrame now stamps (fate i) with
  | none => []
  | some emitted =>
      match emitted.fate with
      | .closed _ => [emitted]
      | _ => emitted :: takeFrames now fate emitted.after stamps.tail (i + 1)
termination_by s.chunker.buf.length
decreasing_by exact takeFrame_shorter _taken

end AudioThread

/-- A drain: when it returned, the samples it brought, and what becomes of its frames. -/
structure Drain where
  nowUs : Nat
  samples : List Int16
  fate : Nat → Fate

/-- What the thread made of a drain, and where it stood before it cut the first frame. -/
structure Drained where
  nowUs : Nat
  before : AudioThread
  emitted : List Emitted
  deriving DecidableEq, Repr

namespace Drained

def stamps (drained : Drained) : List Nat := drained.emitted.map Emitted.tsUs

/-- Samples of each channel in the queue when the drain returned. -/
def buffered (drained : Drained) : Nat := drained.before.queuedInterleaved / channels

def anchor (drained : Drained) : Nat := Sender.anchor drained.nowUs drained.buffered

def closed (drained : Drained) : Bool :=
  drained.emitted.any (fun emitted => emitted.fate matches .closed _)

def after (drained : Drained) : AudioThread :=
  (drained.emitted.getLast?.map Emitted.after).getD drained.before

end Drained

namespace AudioThread

def drain (s : AudioThread) (drain : Drain) : Drained :=
  let pushed : AudioThread :=
    { s with chunker := s.chunker.push drain.samples
             queuedInterleaved := s.queuedInterleaved + drain.samples.length }
  let framesOut := pushed.queuedInterleaved / frameInterleaved
  let stamps := audioFrameTimestamps drain.nowUs (pushed.queuedInterleaved / channels) framesOut
    pushed.lastTs
  ⟨drain.nowUs, pushed, takeFrames drain.nowUs drain.fate pushed stamps 0⟩

/-- The thread's drains, until the capture fails, it is told to stop or nobody takes packets. -/
def run (s : AudioThread) : List Drain → List Drained
  | [] => []
  | drain :: drains =>
      let drained := s.drain drain
      if drained.closed then [drained] else drained :: run drained.after drains

end AudioThread

structure AudioOut where
  tsUs : Nat
  packet : List UInt8
  deriving DecidableEq, Repr

def Emitted.out (emitted : Emitted) : Option AudioOut :=
  match emitted.fate with
  | .sent packet => some ⟨emitted.tsUs, packet⟩
  | _ => none

namespace AudioThread

variable {s : AudioThread}

/-- The mirrored fill level is the chunker's own. -/
def Mirrored (s : AudioThread) : Prop := s.queuedInterleaved = s.chunker.buf.length

theorem stampsFrom_eq (base : Nat) (last : Option Nat) (i count : Nat) :
    stampsFrom base last i count =
      (List.range count).map (fun k =>
        Anchored.opening 10000 (base + i * 10000) last + 10000 * k) := by
  induction count generalizing last i with
  | zero => rfl
  | succ left ih =>
      rw [List.range_succ_eq_map, List.map_cons, List.map_map]
      cases last with
      | none =>
          rw [stampsFrom, ih]
          simp only [Anchored.opening, Option.elim_none, Option.elim_some, Nat.max_zero,
            Nat.mul_zero, Nat.add_zero, List.cons.injEq, true_and]
          refine List.map_congr_left (fun k _ => ?_)
          simp only [Function.comp_apply]
          omega
      | some last =>
          rw [stampsFrom, ih]
          simp only [Anchored.opening, Option.elim_some, Nat.mul_zero, Nat.add_zero,
            List.cons.injEq, true_and]
          refine List.map_congr_left (fun k _ => ?_)
          simp only [Function.comp_apply]
          omega

theorem audioFrameTimestamps_eq (now buffered count : Nat) (last : Option Nat) :
    audioFrameTimestamps now buffered count last =
      (List.range count).map (fun k =>
        Anchored.opening 10000 (anchor now buffered) last + 10000 * k) := by
  rw [audioFrameTimestamps, stampsFrom_eq, Nat.zero_mul, Nat.add_zero]

theorem nextFrame_length {chunker rest : FrameChunker} {frame : List Int16}
    (cut : chunker.nextFrame = some (frame, rest)) :
    frame.length = frameInterleaved ∧
      chunker.buf.length = frameInterleaved + rest.buf.length := by
  unfold FrameChunker.nextFrame at cut
  split at cut
  · cases cut
  · cases cut
    simp only [List.length_take, List.length_drop]
    omega

theorem takeFrame_nil {now : Nat} {stamps : List Nat} {fate : Fate}
    (short : s.chunker.buf.length < frameInterleaved) : s.takeFrame now stamps fate = none := by
  unfold takeFrame
  rw [FrameChunker.nextFrame, if_pos short, Option.map_none]

theorem takeFrame_cons (now t : Nat) (stamps : List Nat) (fate : Fate) (mirrored : s.Mirrored)
    (enough : frameInterleaved ≤ s.chunker.buf.length) :
    ∃ emitted, s.takeFrame now (t :: stamps) fate = some emitted ∧ emitted.tsUs = t ∧
      emitted.fate = fate ∧ emitted.after.lastTs = some t ∧ emitted.after.Mirrored ∧
      s.chunker.buf.length = frameInterleaved + emitted.after.chunker.buf.length := by
  obtain ⟨⟨frame, rest⟩, cut⟩ : ∃ cut, s.chunker.nextFrame = some cut :=
    ⟨_, if_neg (Nat.not_lt.mpr enough)⟩
  obtain ⟨whole, left⟩ := nextFrame_length cut
  unfold takeFrame
  refine ⟨_, by rw [cut, Option.map_some], rfl, rfl, rfl, ?_, left⟩
  unfold Mirrored at mirrored ⊢
  dsimp only
  omega

/-- With a time for each frame in the queue, the frames take the times in order, all of them unless
nobody takes the packets any more. -/
theorem takeFrames_stamps (now : Nat) (fate : Nat → Fate) (stamps : List Nat) (i : Nat)
    (mirrored : s.Mirrored) (enough : stamps.length = s.chunker.buf.length / frameInterleaved) :
    (takeFrames now fate s stamps i).map Emitted.tsUs <+: stamps ∧
      ∀ emitted ∈ takeFrames now fate s stamps i,
        emitted.after.Mirrored ∧ emitted.after.lastTs = some emitted.tsUs := by
  induction stamps generalizing s i with
  | nil =>
      have short : s.chunker.buf.length < frameInterleaved := by
        rw [List.length_nil, eq_comm, Nat.div_eq_zero_iff] at enough
        exact enough.resolve_left (by decide)
      rw [takeFrames]
      split
      · simp
      · rename_i taken
        rw [takeFrame_nil short] at taken
        cases taken
  | cons t stamps ih =>
      have frames : frameInterleaved ≤ s.chunker.buf.length := by
        refine (Nat.div_pos_iff.mp ?_).2
        rw [← enough, List.length_cons]
        exact Nat.succ_pos _
      obtain ⟨first, cut, rfl, _, last, kept, left⟩ :=
        takeFrame_cons now t stamps (fate i) mirrored frames
      have rest : stamps.length = first.after.chunker.buf.length / frameInterleaved := by
        rw [left, Nat.add_div_left _ (by decide), List.length_cons] at enough
        exact Nat.succ.inj enough
      obtain ⟨order, each⟩ := ih (i + 1) kept rest
      rw [takeFrames]
      split
      · rename_i taken
        rw [cut] at taken
        cases taken
      · rename_i emitted taken
        rw [cut] at taken
        cases taken
        split
        · simp [kept, last]
        · simp only [List.map_cons, List.tail_cons, List.mem_cons, List.prefix_cons_inj]
          refine ⟨order, ?_⟩
          rintro emitted (rfl | inside)
          · exact ⟨kept, last⟩
          · exact each emitted inside

end AudioThread

namespace Drained

def burst (drained : Drained) : Anchored.Burst := ⟨drained.anchor, drained.stamps.length⟩

def sent (drained : Drained) : List AudioOut := drained.emitted.filterMap Emitted.out

theorem sent_sublist (drained : Drained) :
    (drained.sent.map AudioOut.tsUs).Sublist drained.stamps := by
  unfold sent stamps
  induction drained.emitted with
  | nil => exact .slnil
  | cons emitted rest ih =>
      obtain ⟨ts, frame, fate, after⟩ := emitted
      cases fate with
      | sent packet => exact ih.cons_cons ts
      | refused => exact ih.cons ts
      | closed packet => exact ih.cons ts

/-- The level that the loop keeps beside the chunker was right wherever the thread stood. -/
def Level (drained : Drained) : Prop :=
  drained.before.Mirrored ∧ ∀ emitted ∈ drained.emitted, emitted.after.Mirrored

structure Follows (drained : Drained) (last : Option Nat) : Prop where
  level : drained.Level
  stamp : ∀ i ts, drained.stamps[i]? = some ts →
    ts = Anchored.opening 10000 drained.anchor last + 10000 * i
  last : drained.after.lastTs = Anchored.closing 10000 last drained.burst

theorem Follows.of_mem {drained : Drained} {last : Option Nat} (follows : drained.Follows last)
    {ts : Nat} (inside : ts ∈ drained.stamps) : ∃ i < drained.stamps.length,
      ts = Anchored.opening 10000 drained.anchor last + 10000 * i := by
  obtain ⟨i, bound, found⟩ := List.getElem_of_mem inside
  exact ⟨i, bound, follows.stamp i ts (List.getElem?_eq_some_iff.mpr ⟨bound, found⟩)⟩

theorem Follows.spaced {drained : Drained} {last : Option Nat} (follows : drained.Follows last) :
    drained.stamps.Pairwise (fun earlier later => earlier + 10000 ≤ later) := by
  rw [List.pairwise_iff_getElem]
  intro i j first second before
  have here := follows.stamp i _ (List.getElem?_eq_getElem first)
  have there := follows.stamp j _ (List.getElem?_eq_getElem second)
  omega

theorem after_mirrored {drained : Drained} (level : drained.Level) : drained.after.Mirrored := by
  unfold after
  cases ended : drained.emitted.getLast? with
  | none => exact level.1
  | some emitted => exact level.2 emitted (List.mem_of_getLast? ended)

end Drained

namespace AudioThread

variable {s : AudioThread}

theorem drain_follows (mirrored : s.Mirrored) (drain : Drain) :
    (s.drain drain).Follows s.lastTs := by
  generalize made : s.drain drain = drained
  have same : drained.before.lastTs = s.lastTs := by
    rw [← made]
    rfl
  have pushed : drained.before.Mirrored := by
    rw [← made]
    simp only [AudioThread.drain, Mirrored, FrameChunker.push, List.length_append]
    exact congrArg (· + _) mirrored
  have taken : drained.emitted = takeFrames drain.nowUs drain.fate drained.before
      (audioFrameTimestamps drained.nowUs drained.buffered
        (drained.before.queuedInterleaved / frameInterleaved) s.lastTs) 0 := by
    rw [← made]
    rfl
  obtain ⟨order, each⟩ := takeFrames_stamps drain.nowUs drain.fate
    (audioFrameTimestamps drained.nowUs drained.buffered
      (drained.before.queuedInterleaved / frameInterleaved) s.lastTs) 0 pushed
    (by rw [audioFrameTimestamps_eq, List.length_map, List.length_range, pushed])
  rw [← taken] at order each
  have stamp : ∀ i ts, drained.stamps[i]? = some ts →
      ts = Anchored.opening 10000 drained.anchor s.lastTs + 10000 * i := by
    intro i ts found
    obtain ⟨rest, split⟩ := order
    have place : (drained.stamps ++ rest)[i]? = some ts := by
      rw [List.getElem?_append_left (List.getElem?_eq_some_iff.mp found).1]
      exact found
    rw [Drained.stamps, split, audioFrameTimestamps_eq, List.getElem?_map,
      Option.map_eq_some_iff] at place
    obtain ⟨k, at_i, rfl⟩ := place
    obtain ⟨_, rfl⟩ := List.getElem?_eq_some_iff.mp at_i
    rw [List.getElem_range]
    rfl
  refine ⟨⟨pushed, fun emitted inside => (each emitted inside).1⟩, stamp, ?_⟩
  cases ended : drained.emitted.getLast? with
  | none =>
      have empty : drained.emitted = [] := List.getLast?_eq_none_iff.mp ended
      rw [Drained.after, ended, Anchored.closing,
        if_pos (by rw [Drained.burst, Drained.stamps, empty]; rfl)]
      exact same
  | some emitted =>
      have inside := List.mem_of_getLast? ended
      have size : drained.burst.size = drained.emitted.length := List.length_map _
      have present : drained.burst.size ≠ 0 := by
        rw [size]
        exact (List.length_pos_of_mem inside).ne'
      rw [List.getLast?_eq_getElem?] at ended
      have final := stamp (drained.emitted.length - 1) emitted.tsUs (by
        rw [Drained.stamps, List.getElem?_map, ended]
        rfl)
      rw [Drained.after, List.getLast?_eq_getElem?, ended, Anchored.closing, if_neg present, size]
      exact ((each emitted inside).2).trans (congrArg some final)

end AudioThread

/-- The thread's drains so far: each frame stands where its own drain or an earlier one puts it at
the latest, and 10 ms after the frame before it. -/
structure Paced (log : List Drained) (last : Option Nat) : Prop where
  stamp : ∀ front own back, log = front ++ own :: back → ∀ i ts, own.stamps[i]? = some ts →
    IsGreatest (insert (own.anchor + 10000 * i)
      (Anchored.lines 10000 (front.map Drained.burst) i)) ts
  linked : Anchored.Linked 10000 (log.map Drained.burst) last
  spaced : (log.flatMap Drained.stamps).Pairwise (fun earlier later => earlier + 10000 ≤ later)
  past : ∀ ts ∈ log.flatMap Drained.stamps, ∃ time, last = some time ∧ ts ≤ time
  level : ∀ drained ∈ log, drained.Level

namespace Paced

variable {log : List Drained} {drained : Drained} {last : Option Nat}

theorem nil : Paced [] none where
  stamp := by simp
  linked := Anchored.linked_nil
  spaced := .nil
  past := by simp
  level := by simp

theorem snoc (paced : Paced log last) (follows : drained.Follows last) :
    Paced (log ++ [drained]) drained.after.lastTs where
  stamp := by
    intro front own back split i ts found
    rcases Since.split_snoc split with ⟨rfl, rfl, rfl⟩ | ⟨rest, rfl, before⟩
    · rw [follows.stamp i ts found]
      exact Anchored.item_greatest paced.linked drained.anchor i
    · exact paced.stamp front own rest before i ts found
  linked := by
    rw [List.map_append, follows.last]
    exact Anchored.linked_snoc drained.burst paced.linked
  spaced := by
    rw [List.flatMap_append, List.flatMap_singleton]
    refine List.pairwise_append.mpr ⟨paced.spaced, follows.spaced, ?_⟩
    intro earlier inside later own
    obtain ⟨time, known, before⟩ := paced.past earlier inside
    obtain ⟨i, _, rfl⟩ := follows.of_mem own
    have := Anchored.opening_le 10000 drained.anchor known
    omega
  past := by
    intro ts inside
    rw [List.flatMap_append, List.flatMap_singleton] at inside
    rw [follows.last, Anchored.closing]
    split
    · rename_i empty
      rw [List.eq_nil_of_length_eq_zero empty, List.append_nil] at inside
      exact paced.past ts inside
    · refine ⟨_, rfl, ?_⟩
      rcases List.mem_append.mp inside with inside | inside
      · obtain ⟨time, known, before⟩ := paced.past ts inside
        have := Anchored.opening_le 10000 drained.burst.base known
        omega
      · obtain ⟨i, bound, rfl⟩ := follows.of_mem inside
        exact Nat.add_le_add_left (Nat.mul_le_mul_left 10000 (Nat.le_sub_one_of_lt bound)) _
  level := by
    intro other inside
    rcases List.mem_append.mp inside with inside | inside
    · exact paced.level other inside
    · rw [List.mem_singleton.mp inside]
      exact follows.level

end Paced

namespace AudioThread

variable {s : AudioThread}

theorem run_paced (drains : List Drain) {log : List Drained} (mirrored : s.Mirrored)
    (paced : Paced log s.lastTs) : ∃ last, Paced (log ++ s.run drains) last := by
  induction drains generalizing s log with
  | nil => exact ⟨s.lastTs, by rwa [run, List.append_nil]⟩
  | cons drain drains ih =>
      have follows := drain_follows mirrored drain
      have next := paced.snoc follows
      rw [run]
      split
      · exact ⟨_, next⟩
      · obtain ⟨last, whole⟩ := ih (Drained.after_mirrored follows.level) next
        exact ⟨last, by rwa [List.append_assoc] at whole⟩

/-- Whatever is drained and whenever: the frames stand 10 ms apart, each no earlier than its samples
were captured and exactly where its own drain, or an earlier one that had a frame, puts it at the
latest; what is sent carries these times, and the mirrored level is always the chunker's. -/
theorem audio_paced (drains : List Drain) :
    ((new.run drains).flatMap Drained.stamps).Pairwise
      (fun earlier later => earlier + 10000 ≤ later) ∧
    ((new.run drains).flatMap (fun drained => drained.sent.map AudioOut.tsUs)).Sublist
      ((new.run drains).flatMap Drained.stamps) ∧
    (∀ front own back, new.run drains = front ++ own :: back →
      ∀ i ts, own.stamps[i]? = some ts →
        own.nowUs + 10000 * i ≤ ts + own.buffered * 1000000 / sampleRate ∧
          IsGreatest (insert (own.anchor + 10000 * i)
            (Anchored.lines 10000 (front.map Drained.burst) i)) ts) ∧
    ∀ drained ∈ new.run drains, drained.Level := by
  obtain ⟨last, paced⟩ := run_paced drains (s := new) rfl Paced.nil
  rw [List.nil_append] at paced
  refine ⟨paced.spaced, ?_, ?_, paced.level⟩
  · induction new.run drains with
    | nil => exact .slnil
    | cons drained rest ih =>
        rw [List.flatMap_cons, List.flatMap_cons]
        exact drained.sent_sublist.append ih
  · intro front own back split i ts found
    have greatest := paced.stamp front own back split i ts found
    have here : own.anchor + 10000 * i ≤ ts := greatest.2 (Set.mem_insert _ _)
    refine ⟨?_, greatest⟩
    unfold Drained.anchor anchor at here
    omega

/-- A frame, four seconds of silence, and two frames with half of one left in the queue. -/
example :
    (new.run [⟨1000000, List.replicate 960 0, fun _ => .sent []⟩,
      ⟨5000000, List.replicate 2400 0, fun _ => .sent []⟩]).map Drained.stamps =
    [[990000], [4975000, 4985000]] := by decide +kernel

end AudioThread

end Castr.Sender
