import Castr.Miracast.Demuxing

/-! What the multiplexer sends, read by the demultiplexer: the units that were pushed. -/

namespace Castr.Miracast.Source.TsMux

open Castr.Lib.Bytes
open Castr.Lib.Run
open Castr.Miracast.Ts

section Tables

theorem resize_append (head bytes : List UInt8) (len : Nat) :
    resize (head ++ bytes) (head.length + len) = head ++ resize bytes len := by
  rw [resize, resize, List.take_length_add_append, List.length_append, Nat.add_sub_add_left,
    List.append_assoc]

theorem carries_section (pid : UInt16) (known : pid ∈ pids) (place : Nat)
    (tableBytes : List UInt8) :
    Carries (sectionPacket pid tableBytes (ccOf place))
      ⟨pid, true, ccOf place, tablePayload tableBytes⟩ := by
  have length : (tablePayload tableBytes).length = 184 := resize_length _ 184
  have some : tablePayload tableBytes ≠ [] := List.ne_nil_of_length_pos (by omega)
  have carries := carries_packet pid known true place none (tablePayload tableBytes) some
    (by rw [length]; rfl)
  have same : sectionPacket pid tableBytes (ccOf place) =
      header true pid false (ccOf place) ++ tablePayload tableBytes := by
    rw [sectionPacket, List.append_assoc]
    exact resize_append (header true pid false (ccOf place)) ([0x00] ++ tableBytes) 184
  rw [same]
  simpa [adaptation] using carries

end Tables

/-- What a multiplexer sends are blocks, and the first of them are tables where tables are due. -/
structure Muxes (m : Muxer) (sent : Muxer × List UInt8) (counts : UInt16 → Nat)
    (blocks : List Block) : Prop where
  emits : Emits sent.2 ((sentOf counts blocks).map Sent.carried)
  counted : sent.1.Counted (countedBy counts blocks)
  starts : m.sinceTables = 0 →
    (blocks = [] ∧ sent.1.sinceTables = 0) ∨ ∃ profile level rest, blocks =
      .tables profile level :: rest

theorem muxes_nil (m : Muxer) (counts : UInt16 → Nat) (counted : m.Counted counts) :
    Muxes m (m, []) counts [] := ⟨emits_nil, counted, fun due => Or.inl ⟨rfl, due⟩⟩

theorem muxes_append (m : Muxer) (first second : Muxer × List UInt8) (counts : UInt16 → Nat)
    (front back : List Block) (muxes : Muxes m first counts front)
    (more : Muxes first.1 second (countedBy counts front) back) :
    Muxes m (second.1, first.2 ++ second.2) counts (front ++ back) := by
  constructor
  · rw [sentOf_append, List.map_append]
    exact emits_append _ _ _ _ muxes.emits more.emits
  · rw [countedBy_append]
    exact more.counted
  · intro due
    rcases muxes.starts due with ⟨rfl, still⟩ | ⟨profile, level, rest, rfl⟩
    · exact more.starts still
    · exact Or.inr ⟨profile, level, rest ++ back, rfl⟩

section Sending

variable (m : Muxer) (counts : UInt16 → Nat) (counted : m.Counted counts)

include counted

theorem tablesIfDue_muxes : ∃ blocks : List Block, (∀ block ∈ blocks, ∃ profile level,
      block = .tables profile level) ∧ (m.sinceTables = 0 → blocks ≠ []) ∧
      Muxes m m.tablesIfDue counts blocks ∧ m.tablesIfDue.1.audioPending = m.audioPending := by
  by_cases due : m.sinceTables ≠ 0 ∧ m.sinceTables < tableIntervalPackets
  · have same : m.tablesIfDue = (m, []) := by rw [Muxer.tablesIfDue, if_pos due]
    rw [same]
    exact ⟨[], by simp, fun none => absurd none due.1, muxes_nil m counts counted, rfl⟩
  · have begun : ({ m with sinceTables := 0 } : Muxer).Counted counts := counted
    obtain ⟨patCc, pat⟩ := nextCc_counted _ counts 0 begun
    obtain ⟨pmtCc, pmt⟩ := nextCc_counted _ _ pmtPid pat
    have apart : pmtPid ≠ 0 := by decide
    rw [Function.update_of_ne apart] at pmtCc pmt
    have same :
      m.tablesIfDue = ((({ m with sinceTables := 0 } : Muxer).nextCc 0).1.nextCc pmtPid |>.1,
        sectionPacket 0 patSection (ccOf (counts 0)) ++
          sectionPacket pmtPid (pmtSection m.h264Profile m.h264Level) (ccOf (counts pmtPid))) := by
      rw [Muxer.tablesIfDue, if_neg due]
      simp only [patCc, pmtCc]
    rw [same]
    refine ⟨[.tables m.h264Profile m.h264Level], by simp, by simp, ⟨?_, pmt, ?_⟩, rfl⟩
    · exact emits_append _ _ [_] [_]
        (emits_single _ _ (carries_section 0 (by decide) _ patSection))
        (emits_single _ _ (carries_section pmtPid (by decide) _ _))
    · exact fun _ => Or.inr ⟨_, _, [], rfl⟩

theorem unit_muxes (track : Track) (pid : UInt16) (named : track.pid = pid) (unit : List UInt8)
    (pcr90k : Option Nat) (IsCut : Cut → Prop)
    (cuts : ∀ pieces, Cuts unit pieces → ∃ cut : Cut, cut.pieces = pieces ∧ cut.track = track ∧
      IsCut cut) :
    let sent := m.tablesIfDue.1.packetize pid unit pcr90k
    ∃ blocks cut, cutsOf .video blocks = [] ∧ cutsOf .audio blocks = [] ∧ cut.track = track ∧
      IsCut cut ∧ Muxes m (sent.1, m.tablesIfDue.2 ++ sent.2) counts (blocks ++ [.unit cut]) ∧
      sent.1.audioPending = m.audioPending := by
  subst named
  obtain ⟨blocks, tables, due, muxes, kept⟩ := tablesIfDue_muxes m counts counted
  have known : track.pid ∈ pids := by cases track <;> decide
  obtain ⟨pieces, whole, sends⟩ := packetizeFrom_sends track.pid known pcr90k unit.length
    m.tablesIfDue.1 _ muxes.counted true unit le_rfl
  obtain ⟨cut, rfl, rfl, isCut⟩ := cuts pieces whole
  have none (other : Track) : cutsOf other blocks = [] := by
    apply List.filterMap_eq_nil_iff.mpr
    intro block member
    obtain ⟨profile, level, rfl⟩ := tables block member
    rfl
  refine ⟨blocks, cut, none .video, none .audio, rfl, isCut, ⟨?_, ?_, ?_⟩, ?_⟩
  · rw [sentOf_append, List.map_append]
    apply emits_append _ _ _ _ muxes.emits
    have emits := sends.emits
    rw [← carried_sent] at emits
    simpa [sentOf, Block.sent, Muxer.packetize] using emits
  · rw [countedBy_append]
    exact sends.counted
  · intro begun
    have some := due begun
    cases blocks with
    | nil => exact absurd rfl some
    | cons block rest =>
        obtain ⟨profile, level, rfl⟩ := tables block List.mem_cons_self
        exact Or.inr ⟨profile, level, rest ++ [.unit cut], rfl⟩
  · exact (congrArg Muxer.audioPending sends.kept).trans kept

theorem pushVideo_muxes (au : List UInt8) (ptsUs : UInt64) :
    ∃ blocks cut, Muxes m (m.pushVideo au ptsUs) counts blocks ∧ cutsOf .video blocks = [cut] ∧
      cutsOf .audio blocks = [] ∧ cut.data = au ∧
      cut.ptsUs = some (readPts (ptsBytes (ptsUs * 9 / 100).toNat)) ∧
      (m.pushVideo au ptsUs).1.audioPending = m.audioPending := by
  obtain ⟨blocks, cut, video, audio, track, ⟨data, time⟩, muxes, kept⟩ :=
    unit_muxes m counts counted .video videoPid rfl (pes streamIdVideo au ptsUs false)
      (some (ptsUs * 9 / 100).toNat)
      (fun cut => cut.data = au ∧ cut.ptsUs = some (readPts (ptsBytes (ptsUs * 9 / 100).toNat)))
      (video_cut au ptsUs)
  have sent : Muxes m (m.pushVideo au ptsUs) counts (blocks ++ [.unit cut]) := muxes
  have pending : (m.pushVideo au ptsUs).1.audioPending = m.audioPending := by
    simpa only [Muxer.pushVideo] using kept
  refine ⟨blocks ++ [.unit cut], cut, sent, ?_, ?_, data, time, pending⟩
  · rw [cutsOf_append, video, cutsOf_unit, if_pos track, List.nil_append]
  · rw [cutsOf_append, audio, cutsOf_unit, track, if_neg (by decide), List.nil_append]

end Sending

section Audio

theorem frame_length (samples : List Int16) :
    (Lpcm.frame samples).length = 4 + samples.length * 2 := by
  have pair (sample : Int16) : (Lpcm.sampleBytes sample).length = 2 := by
    simp [Lpcm.sampleBytes]
  rw [Lpcm.frame, List.length_append, List.length_flatMap]
  simp [pair]

theorem pushFrame_muxes (m : Muxer) (counts : UInt16 → Nat) (counted : m.Counted counts)
    (ptsUs : UInt64) (some_ : Lpcm.samplesPerFrame ≤ m.audioPending.length) :
    ∃ blocks cut, Muxes m (m.pushFrame ptsUs) counts blocks ∧ cutsOf .video blocks = [] ∧
      cutsOf .audio blocks = [cut] ∧
      cut.data = Lpcm.frame (m.audioPending.take Lpcm.samplesPerFrame) ∧
      (m.pushFrame ptsUs).1.audioPending = m.audioPending.drop Lpcm.samplesPerFrame := by
  have length := frame_length (m.audioPending.take Lpcm.samplesPerFrame)
  rw [List.length_take, Nat.min_eq_left some_] at length
  have samples : Lpcm.samplesPerFrame = 960 := by decide
  obtain ⟨blocks, cut, video, audio, track, data, muxes, kept⟩ :=
    unit_muxes (m.drained (m.nextAudioPtsUs.getD ptsUs)) counts counted .audio audioPid rfl
      (pesWithStuffing streamIdPrivate1 (Lpcm.frame (m.audioPending.take Lpcm.samplesPerFrame))
        (m.nextAudioPtsUs.getD ptsUs) true 2)
      none (fun cut => cut.data = Lpcm.frame (m.audioPending.take Lpcm.samplesPerFrame))
      (audio_cut _ _ (by omega))
  have sent : Muxes m (m.pushFrame ptsUs) counts (blocks ++ [.unit cut]) :=
    ⟨muxes.emits, muxes.counted, muxes.starts⟩
  have pending : (m.pushFrame ptsUs).1.audioPending =
      m.audioPending.drop Lpcm.samplesPerFrame := by
    have taken : (m.drained (m.nextAudioPtsUs.getD ptsUs)).audioPending =
        m.audioPending.drop Lpcm.samplesPerFrame := rfl
    rw [taken] at kept
    simpa only [Muxer.pushFrame] using kept
  refine ⟨blocks ++ [.unit cut], cut, sent, ?_, ?_, data, pending⟩
  · rw [cutsOf_append, video, cutsOf_unit, track, if_neg (by decide), List.nil_append]
  · rw [cutsOf_append, audio, cutsOf_unit, if_pos track, List.nil_append]

theorem pushFrames_muxes (ptsUs : UInt64) (fuel : Nat) (m : Muxer) (counts : UInt16 → Nat)
    (counted : m.Counted counts) :
    ∃ (blocks : List Block) (frames : List (List Int16)),
      Muxes m (Muxer.pushFrames ptsUs fuel m) counts blocks ∧ cutsOf .video blocks = [] ∧
      (cutsOf .audio blocks).map Cut.data = frames.map Lpcm.frame ∧
      (∀ frame ∈ frames, frame.length = Lpcm.samplesPerFrame) ∧
      frames.flatten ++ (Muxer.pushFrames ptsUs fuel m).1.audioPending = m.audioPending := by
  induction fuel generalizing m counts with
  | zero => exact ⟨[], [], muxes_nil m counts counted, rfl, rfl, by simp, rfl⟩
  | succ fuel ih =>
      rw [Muxer.pushFrames]
      by_cases few : m.audioPending.length < Lpcm.samplesPerFrame
      · rw [if_pos few]
        exact ⟨[], [], muxes_nil m counts counted, rfl, rfl, by simp, rfl⟩
      · rw [if_neg few]
        have enough := Nat.not_lt.mp few
        obtain ⟨front, cut, muxes, video, audio, data, pending⟩ :=
          pushFrame_muxes m counts counted ptsUs enough
        obtain ⟨back, frames, more, videos, audios, whole, left⟩ :=
          ih (m.pushFrame ptsUs).1 (countedBy counts front) muxes.counted
        refine ⟨front ++ back, m.audioPending.take Lpcm.samplesPerFrame :: frames,
          muxes_append m _ _ counts front back muxes more, ?_, ?_, ?_, ?_⟩
        · rw [cutsOf_append, video, videos, List.nil_append]
        · rw [cutsOf_append, List.map_append, audio, audios, List.map_singleton, data]
          rfl
        · rw [List.forall_mem_cons, List.length_take, Nat.min_eq_left enough]
          exact ⟨rfl, whole⟩
        · rw [pending] at left
          rw [List.flatten_cons, List.append_assoc, left, List.take_append_drop]

theorem pushAudio_base (m : Muxer) (samples : List Int16) (ptsUs : UInt64) :
    ∃ base : Muxer, m.pushAudio samples ptsUs =
        Muxer.pushFrames ptsUs base.audioPending.length base ∧ base.cc = m.cc ∧
      base.sinceTables = m.sinceTables ∧ base.audioPending = m.audioPending ++ samples := by
  refine ⟨_, rfl, ?_⟩
  split <;> exact ⟨rfl, rfl, rfl⟩

theorem pushAudio_muxes (m : Muxer) (counts : UInt16 → Nat) (counted : m.Counted counts)
    (samples : List Int16) (ptsUs : UInt64) :
    ∃ (blocks : List Block) (frames : List (List Int16)),
      Muxes m (m.pushAudio samples ptsUs) counts blocks ∧ cutsOf .video blocks = [] ∧
      (cutsOf .audio blocks).map Cut.data = frames.map Lpcm.frame ∧
      (∀ frame ∈ frames, frame.length = Lpcm.samplesPerFrame) ∧
      frames.flatten ++ (m.pushAudio samples ptsUs).1.audioPending = m.audioPending ++ samples := by
  obtain ⟨base, same, counters, since, pending⟩ := pushAudio_base m samples ptsUs
  have begun : base.Counted counts := by
    intro pid
    rw [counters]
    exact counted pid
  obtain ⟨blocks, frames, muxes, video, audio, whole, left⟩ :=
    pushFrames_muxes ptsUs base.audioPending.length base counts begun
  rw [same, ← pending]
  exact ⟨blocks, frames, ⟨muxes.emits, muxes.counted, fun due => muxes.starts (since.trans due)⟩,
    video, audio, whole, left⟩

end Audio

section Runs

def Muxer.Op.videos : Muxer.Op → List (List UInt8 × UInt64)
  | .video au ptsUs => [(au, ptsUs)]
  | _ => []

def Muxer.Op.samples : Muxer.Op → List Int16
  | .audio samples _ => samples
  | _ => []

def VideoCut (cut : Cut) (push : List UInt8 × UInt64) : Prop :=
  cut.data = push.1 ∧ cut.ptsUs = some (readPts (ptsBytes (push.2 * 9 / 100).toNat))

/-- What blocks carry: the pushed video, and frames of the samples that are no longer pending. -/
structure Content (before after : Muxer) (videos : List (List UInt8 × UInt64))
    (samples : List Int16) (blocks : List Block) (frames : List (List Int16)) : Prop where
  video : List.Forall₂ VideoCut (cutsOf .video blocks) videos
  audio : (cutsOf .audio blocks).map Cut.data = frames.map Lpcm.frame
  whole : ∀ frame ∈ frames, frame.length = Lpcm.samplesPerFrame
  left : frames.flatten ++ after.audioPending = before.audioPending ++ samples

theorem step_muxes (m : Muxer) (counts : UInt16 → Nat) (counted : m.Counted counts)
    (op : Muxer.Op) :
    ∃ blocks frames, Muxes m (m.step op) counts blocks ∧
      Content m (m.step op).1 op.videos op.samples blocks frames := by
  cases op with
  | video au ptsUs =>
      obtain ⟨blocks, cut, muxes, video, audio, data, time, pending⟩ :=
        pushVideo_muxes m counts counted au ptsUs
      refine ⟨blocks, [], muxes, ⟨?_, ?_, by simp, ?_⟩⟩
      · rw [video]
        exact .cons ⟨data, time⟩ .nil
      · rw [audio]
        rfl
      · simpa [Muxer.Op.samples, Muxer.step] using pending
  | audio samples ptsUs =>
      obtain ⟨blocks, frames, muxes, video, audio, whole, left⟩ :=
        pushAudio_muxes m counts counted samples ptsUs
      refine ⟨blocks, frames, muxes, ⟨?_, audio, whole, left⟩⟩
      rw [video]
      exact .nil
  | format profile level =>
      refine ⟨[], [], ⟨emits_nil, counted, fun _ => Or.inl ⟨rfl, rfl⟩⟩, ⟨.nil, rfl, by simp, ?_⟩⟩
      simp [Muxer.Op.samples, Muxer.step, Muxer.setH264Format]

theorem content_append (first second third : Muxer) (videos more : List (List UInt8 × UInt64))
    (samples others : List Int16) (front back : List Block) (frames later : List (List Int16))
    (content : Content first second videos samples front frames)
    (next : Content second third more others back later) :
    Content first third (videos ++ more) (samples ++ others) (front ++ back) (frames ++ later) := by
  constructor
  · rw [cutsOf_append]
    exact List.rel_append content.video next.video
  · rw [cutsOf_append, List.map_append, content.audio, next.audio, List.map_append]
  · intro frame member
    rcases List.mem_append.mp member with inside | inside
    · exact content.whole frame inside
    · exact next.whole frame inside
  · rw [List.flatten_append, List.append_assoc, next.left, ← List.append_assoc, content.left,
      List.append_assoc]

theorem run_muxes (ops : List Muxer.Op) (m : Muxer) (counts : UInt16 → Nat)
    (counted : m.Counted counts) :
    ∃ blocks frames,
      Muxes m (final Muxer.step m ops, (outputs Muxer.step m ops).flatten) counts blocks ∧
      Content m (final Muxer.step m ops) (ops.flatMap Muxer.Op.videos)
        (ops.flatMap Muxer.Op.samples) blocks frames := by
  induction ops generalizing m counts with
  | nil =>
      exact ⟨[], [], muxes_nil m counts counted, ⟨.nil, rfl, by simp, by simp⟩⟩
  | cons op ops ih =>
      obtain ⟨front, frames, muxes, content⟩ := step_muxes m counts counted op
      obtain ⟨back, later, more, next⟩ := ih (m.step op).1 (countedBy counts front) muxes.counted
      exact ⟨front ++ back, frames ++ later, muxes_append m _ _ counts front back muxes more,
        content_append m _ _ _ _ _ _ front back frames later content next⟩

/-- A unit as it was pushed, its time at most 12 µs early. -/
def Close (unit : List UInt8 × Option Nat) (push : List UInt8 × UInt64) : Prop :=
  unit.1 = push.1 ∧ ∃ pts, unit.2 = some pts ∧ pts ≤ push.2.toNat ∧ push.2.toNat ≤ pts + 12

theorem videos_close (cuts : List Cut) (videos : List (List UInt8 × UInt64))
    (sent : List.Forall₂ VideoCut cuts videos)
    (fits : ∀ push ∈ videos, push.2.toNat * 9 / 100 < 2 ^ 33) :
    List.Forall₂ Close (cuts.map Cut.pair) videos := by
  induction sent with
  | nil => exact .nil
  | cons first _ ih =>
      obtain ⟨here, later⟩ := List.forall_mem_cons.mp fits
      exact .cons ⟨first.1, _, first.2, readPts_close _ here⟩ (ih later)

theorem forall₂_mem {α β : Type} {R : α → β → Prop} (left : List α) (right : List β)
    (related : List.Forall₂ R left right) : ∀ first ∈ left, ∃ second ∈ right, R first second := by
  induction related with
  | nil => simp
  | cons here _ ih =>
      rw [List.forall_mem_cons]
      refine ⟨⟨_, List.mem_cons_self, here⟩, fun first member => ?_⟩
      obtain ⟨second, inside, same⟩ := ih first member
      exact ⟨second, List.mem_cons_of_mem _ inside, same⟩

theorem forall₂_dropLast {α β : Type} (R : α → β → Prop) (left : List α) (right : List β)
    (related : List.Forall₂ R left right) : List.Forall₂ R left.dropLast right.dropLast := by
  rw [List.dropLast_eq_take, List.dropLast_eq_take, related.length_eq]
  exact List.forall₂_take _ related

/-- Whatever is pushed comes out of a fresh demultiplexer as it was, the last video unit still
open, and the samples in their frames. -/
theorem mux_demux (ops : List Muxer.Op) (fair : ∀ op ∈ ops, ∀ push ∈ op.videos,
      push.1 ≠ [] ∧ push.2.toNat * 9 / 100 < 2 ^ 33) :
    let packets := chunks packetLen (outputs Muxer.step .new ops).flatten
    let fed := Demux.new.pushAll packets
    (∀ packet ∈ packets, packet.length = packetLen ∧ packet.getD 0 0 = sync) ∧
      fed.1.continuityErrors = 0 ∧
      List.Forall₂ Close (videosOf fed.2) (ops.flatMap Muxer.Op.videos).dropLast ∧
      ∃ frames : List (List Int16), (∀ frame ∈ frames, frame.length = Lpcm.samplesPerFrame) ∧
        audiosOf fed.2 = frames.map Lpcm.frame ∧
        frames.flatten ++ (final Muxer.step .new ops).audioPending =
          ops.flatMap Muxer.Op.samples := by
  obtain ⟨blocks, frames, muxes, content⟩ := run_muxes ops .new (fun _ => 0) (fun _ => rfl)
  have carry := emits_chunks _ _ muxes.emits
  have starts : blocks = [] ∨ ∃ profile level rest, blocks = .tables profile level :: rest :=
    (muxes.starts rfl).imp_left And.left
  have each : ∀ push ∈ ops.flatMap Muxer.Op.videos,
      push.1 ≠ [] ∧ push.2.toNat * 9 / 100 < 2 ^ 33 := by
    intro push member
    obtain ⟨op, inside, pushed⟩ := List.mem_flatMap.mp member
    exact fair op inside push pushed
  have nonempty (cut : Cut) (member : cut ∈ cutsOf .video blocks) : cut.data ≠ [] := by
    obtain ⟨push, inside, same⟩ := forall₂_mem _ _ content.video cut member
    rw [same.1]
    exact (each push inside).1
  obtain ⟨videos, audios, errors⟩ := take_muxed blocks starts nonempty
  dsimp only
  rw [pushAll_carries _ _ _ carry]
  dsimp only
  rw [videos, audios]
  refine ⟨forall₂_whole _ _ carry, errors, ?_, frames, content.whole, content.audio, ?_⟩
  · exact forall₂_dropLast _ _ _ (videos_close _ _ content.video
      (fun push member => (each push member).2))
  · exact content.left

theorem mux_demux_two :
    let ops : List Muxer.Op := [.video [7, 7] 100, .format 0x02 0x04, .audio [1, 2] 5,
      .video [9] 200]
    let fed := Demux.new.pushAll (chunks packetLen (outputs Muxer.step .new ops).flatten)
    fed.1.continuityErrors = 0 ∧ List.Forall₂ Close (videosOf fed.2) [([7, 7], 100)] := by
  obtain ⟨-, errors, videos, -⟩ := mux_demux
    [.video [7, 7] 100, .format 0x02 0x04, .audio [1, 2] 5, .video [9] 200]
    (by simp [Muxer.Op.videos])
  exact ⟨errors, videos⟩

theorem payload_frame (samples : List Int16) :
    Lpcm.payload (Lpcm.frame samples) = samples.flatMap Lpcm.sampleBytes := by
  have long : ¬ (Lpcm.frame samples).length < Lpcm.headerLen := by
    rw [frame_length, Lpcm.headerLen]
    omega
  have headed : (Lpcm.frame samples).getD 0 0 = Lpcm.substreamId ∧
      0 < (Lpcm.frame samples).getD 1 0 := ⟨rfl, by show (0 : UInt8) < 6; decide⟩
  rw [Lpcm.payload, if_neg long, if_pos headed]
  rfl

end Runs

end Castr.Miracast.Source.TsMux
