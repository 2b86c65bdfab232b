import Castr.Miracast.Packets

/-! What the demultiplexer does with the packets of a multiplexer: tables, and pieces of units. -/

namespace Castr.Miracast.Ts

open Castr.Lib.Bytes
open Castr.Lib.Run
open Source.TsMux

section Tables

def entries (s : List UInt8) (stop : Nat) : Nat → Nat → List (UInt8 × UInt16)
  | 0, _ => []
  | fuel + 1, i =>
      if i + 5 ≤ stop then
        (s.getD i 0, pidOf (s.getD (i + 1) 0) (s.getD (i + 2) 0)) ::
          entries s stop fuel (i + 5 + low 12 (s.getD (i + 3) 0) (s.getD (i + 4) 0))
      else []

def Demux.name (d : Demux) (entry : UInt8 × UInt16) : Demux :=
  if entry.1 = Ts.streamTypeH264 then { d with videoPid := some entry.2 }
  else if entry.1 = Ts.streamTypeLpcm then { d with audioPid := some entry.2 }
  else d

theorem readStreams_entries (d : Demux) (s : List UInt8) (stop fuel i : Nat) :
    d.readStreams s stop fuel i = (entries s stop fuel i).foldl Demux.name d := by
  induction fuel generalizing d i with
  | zero => rfl
  | succ fuel ih =>
      rw [Demux.readStreams, entries]
      split
      · rw [List.foldl_cons, ← ih]
        rfl
      · rfl

theorem read_pat (d : Demux) (place : Nat) :
    d.readPat (Sent.pat place).carried.payload true = { d with pmtPid := some pmtPid } := by
  have read : (Demux.sectionOf (tablePayload patSection) true 0x00).map
      (fun s => pidOf (s.getD 10 0) (s.getD 11 0)) = some pmtPid := by decide +kernel
  have known : pmtPid ≠ 0 := by decide
  obtain ⟨s, section_, pid⟩ := Option.map_eq_some_iff.mp read
  show d.readPat (tablePayload patSection) true = _
  rw [Demux.readPat, section_]
  dsimp only
  rw [pid, if_pos known]

theorem pmt_entries : ∀ profile ∈ [(0x02 : UInt8), 0x01], ∀ level ∈ [(0x02 : UInt8), 0x04, 0x08,
    0x10, 0x01],
    (Demux.sectionOf (tablePayload (pmtSection profile level)) true 0x02).map (fun s =>
      let sectionLen := low 12 (s.getD 1 0) (s.getD 2 0) + 3
      (decide (sectionLen < 16), entries s (min (sectionLen - 4) s.length) s.length
        (12 + low 12 (s.getD 10 0) (s.getD 11 0)))) =
      some (false, [(Ts.streamTypeH264, videoPid), (Ts.streamTypeLpcm, audioPid)]) := by
  decide +kernel

theorem pmtSection_same (profile level : UInt8) :
    ∃ profile' ∈ [(0x02 : UInt8), 0x01], ∃ level' ∈ [(0x02 : UInt8), 0x04, 0x08, 0x10, 0x01],
      pmtSection profile level = pmtSection profile' level' := by
  have profiles : ∃ profile' ∈ [(0x02 : UInt8), 0x01], profileBytes profile =
      profileBytes profile' := by
    by_cases high : profile = 0x02
    · exact ⟨0x02, by simp, by rw [high]⟩
    · exact ⟨0x01, by simp, by rw [profileBytes, if_neg high]; rfl⟩
  have levels : ∃ level' ∈ [(0x02 : UInt8), 0x04, 0x08, 0x10, 0x01],
      levelByte level = levelByte level' := by
    by_cases named : level ∈ [(0x02 : UInt8), 0x04, 0x08, 0x10]
    · exact ⟨level, List.mem_append_left [0x01] named, rfl⟩
    · simp only [List.mem_cons, List.not_mem_nil, or_false, not_or] at named
      refine ⟨0x01, by simp, ?_⟩
      rw [levelByte, if_neg named.1, if_neg named.2.1, if_neg named.2.2.1, if_neg named.2.2.2]
      rfl
  obtain ⟨profile', one, sameProfile⟩ := profiles
  obtain ⟨level', two, sameLevel⟩ := levels
  exact ⟨profile', one, level', two, by rw [pmtSection, pmtSection, sameProfile, sameLevel]⟩

theorem read_pmt (d : Demux) (profile level : UInt8) (place : Nat) :
    d.readPmt (Sent.pmt profile level place).carried.payload true =
      { d with videoPid := some videoPid, audioPid := some audioPid } := by
  obtain ⟨profile', one, level', two, same⟩ := pmtSection_same profile level
  have read := pmt_entries profile' one level' two
  rw [← same] at read
  obtain ⟨s, section_, parts⟩ := Option.map_eq_some_iff.mp read
  obtain ⟨long, streams⟩ := Prod.mk.inj parts
  show d.readPmt (tablePayload (pmtSection profile level)) true = _
  rw [Demux.readPmt, section_]
  dsimp only
  rw [if_neg (of_decide_eq_false long), readStreams_entries, streams]
  rfl

end Tables

section Assemblies

namespace Cut

variable (cut : Cut)

def upTo (index : Nat) : List UInt8 := cut.pes.body ++ (cut.rest.take index).flatten

def begun (index : Nat) : Assembly := ⟨cut.upTo index, cut.ptsUs, false, true, cut.pes.payloadLen⟩

def ended : Assembly := ⟨[], cut.ptsUs, false, false, none⟩

def last : Nat := cut.rest.length

/-- Audio says how long it is and is done with its last piece. -/
def after (index : Nat) : Assembly × Option (List UInt8 × Option Nat) :=
  if cut.track = .audio ∧ index = cut.last then (cut.ended, some (cut.data, cut.ptsUs))
  else (cut.begun index, none)

theorem upTo_append (index : Nat) : cut.upTo index ++ (cut.rest.drop index).flatten = cut.data := by
  rw [upTo, List.append_assoc, ← List.flatten_append, List.take_append_drop, cut.whole]

theorem upTo_last : cut.upTo cut.last = cut.data := by
  have whole := cut.upTo_append cut.last
  rwa [last, List.drop_length, List.flatten_nil, List.append_nil] at whole

theorem upTo_short (index : Nat) (before : index < cut.last) :
    (cut.upTo index).length < cut.data.length := by
  have whole := congrArg List.length (cut.upTo_append index)
  have inside : index < cut.rest.length := before
  have piece := cut.solid cut.rest[index] (List.getElem_mem inside)
  have some := List.length_pos_iff.mpr piece
  rw [List.length_append, List.drop_eq_getElem_cons before, List.flatten_cons,
    List.length_append] at whole
  omega

theorem upTo_succ (index : Nat) (before : index < cut.last) :
    cut.upTo (index + 1) = cut.upTo index ++ cut.rest.getD index [] := by
  have inside : index < cut.rest.length := before
  have there : cut.rest.getD index [] = cut.rest[index] := by
    rw [List.getD_eq_getElem?_getD, List.getElem?_eq_getElem inside, Option.getD_some]
  rw [upTo, upTo, List.take_add_one, List.getElem?_eq_getElem inside, there, Option.toList_some,
    List.flatten_append, List.flatten_singleton, List.append_assoc]

theorem upTo_le (index : Nat) (within : index ≤ cut.last) :
    (cut.upTo index).length ≤ cut.data.length := by
  rcases Nat.lt_or_eq_of_le within with before | rfl
  · exact (cut.upTo_short index before).le
  · rw [upTo_last]

theorem finish_begun (index : Nat) (within : index ≤ cut.last) :
    (cut.begun index).finish = cut.after index := by
  have bounded := cut.bounded
  rw [Assembly.finish, after]
  cases track : cut.track with
  | video =>
      rw [track] at bounded
      simp [begun, Assembly.complete, bounded]
  | audio =>
      rw [track] at bounded
      by_cases done : index = cut.last
      · subst done
        simp [begun, ended, Assembly.complete, bounded, upTo_last]
      · have short := cut.upTo_short index (by omega)
        simp [begun, Assembly.complete, bounded, done, short]

theorem append_begun (index : Nat) (before : index < cut.last) :
    (cut.begun index).append (cut.rest.getD index []) = cut.begun (index + 1) := by
  have bounded := cut.bounded
  have next := cut.upTo_succ index before
  have fits := cut.upTo_le (index + 1) before
  rw [Assembly.append]
  cases track : cut.track with
  | video =>
      rw [track] at bounded
      simp [begun, bounded, next]
  | audio =>
      rw [track] at bounded
      rw [next, List.length_append] at fits
      have room : (cut.rest.getD index []).length ≤ cut.data.length - (cut.upTo index).length := by
        omega
      simp only [begun, bounded, next, List.take_of_length_le room]

theorem restart_first (asm : Assembly) : asm.restart cut.first = (cut.begun 0,
    if asm.isOpen ∧ !asm.damaged ∧ asm.data ≠ [] then some (asm.data, asm.ptsUs) else none) := by
  have bounded := cut.bounded
  have body : cut.upTo 0 = cut.pes.body := by simp [upTo]
  have fits := cut.upTo_le 0 (Nat.zero_le _)
  rw [body] at fits
  rw [Assembly.restart, cut.parsed]
  refine Prod.ext ?_ rfl
  dsimp only
  rw [Assembly.append]
  cases track : cut.track with
  | video =>
      rw [track] at bounded
      simp [begun, bounded, body, cut.stamped]
  | audio =>
      rw [track] at bounded
      simp [begun, bounded, body, cut.stamped, List.take_of_length_le fits]

end Cut

def Assembly.done (asm : Assembly) : Option (List UInt8 × Option Nat) :=
  if asm.isOpen ∧ !asm.damaged ∧ asm.data ≠ [] then some (asm.data, asm.ptsUs) else none

theorem take_first (asm : Assembly) (cut : Cut) : asm.take cut.first true =
    ((cut.after 0).1, asm.done.toList ++ (cut.after 0).2.toList) := by
  simp only [Assembly.take, if_true, cut.restart_first, cut.finish_begun 0 (Nat.zero_le _)]
  rfl

theorem take_next (cut : Cut) (index : Nat) (before : index < cut.last) :
    (cut.begun index).take (cut.rest.getD index []) false =
      ((cut.after (index + 1)).1, (cut.after (index + 1)).2.toList) := by
  have isOpen : (cut.begun index).isOpen = true := rfl
  simp only [Assembly.take, Bool.false_eq_true, if_false, isOpen, if_true,
    cut.append_begun index before, cut.finish_begun (index + 1) before]
  rfl

end Assemblies

section Continuity

namespace Demux

variable (d : Demux) (pid : UInt16) (cc : UInt8)

/-- The packet has the counter behind the last one of its stream, if there was one. -/
def Smooth : Prop := ∀ last ∈ d.lastCc.lookup pid, cc = (last + 1) &&& 0x0f

instance : Decidable (d.Smooth pid cc) :=
  inferInstanceAs (Decidable (∀ last ∈ d.lastCc.lookup pid, cc = (last + 1) &&& 0x0f))

def seen : Demux := { d with lastCc := (pid, cc) :: d.lastCc.filter (fun entry => entry.1 ≠ pid) }

theorem seen_lookup (other : UInt16) :
    (d.seen pid cc).lastCc.lookup other = if other = pid then some cc else d.lastCc.lookup other :=
  lookup_entry d.lastCc pid other cc

theorem count_smooth (smooth : d.Smooth pid cc) : d.countContinuity pid cc = d.seen pid cc := by
  have unbroken : (d.lastCc.lookup pid).any (fun last => cc ≠ (last + 1) &&& 0x0f) = false := by
    cases last : d.lastCc.lookup pid with
    | none => rfl
    | some value => simpa using smooth value last
  rw [countContinuity, unbroken]
  rfl

end Demux

end Continuity

section Following

def Demux.Counted (d : Demux) (counts : UInt16 → Nat) : Prop :=
  ∀ pid, d.lastCc.lookup pid = Source.TsMux.lastCc (counts pid)

structure Tuned (d : Demux) : Prop where
  pmt : d.pmtPid = some pmtPid
  video : d.videoPid = some videoPid
  audio : d.audioPid = some audioPid

structure Follows (d : Demux) (counts : UInt16 → Nat) : Prop where
  tuned : Tuned d
  counted : d.Counted counts
  errors : d.continuityErrors = 0

theorem smooth_next (d : Demux) (counts : UInt16 → Nat) (counted : d.Counted counts)
    (pid : UInt16) : d.Smooth pid (ccOf (counts pid)) := by
  intro last entry
  have there := counted pid
  rw [Option.mem_def.mp entry] at there
  have next := next_cc (counts pid)
  rw [← there, Option.getD_some] at next
  exact next.symm

theorem seen_counted (d : Demux) (counts : UInt16 → Nat) (counted : d.Counted counts)
    (pid : UInt16) :
    (d.seen pid (ccOf (counts pid))).Counted (Function.update counts pid (counts pid + 1)) := by
  intro other
  rw [Demux.seen_lookup, Function.update_apply]
  split
  · rfl
  · exact counted other

theorem trackOf_pid (d : Demux) (tuned : Tuned d) (track : Track) :
    d.trackOf track.pid = some track := by
  cases track <;> simp [Demux.trackOf, Track.pid, tuned.video, tuned.audio, videoPid, audioPid]

@[simp] theorem pmtPid_setAssembly (d : Demux) (track : Track) (asm : Assembly) :
    (d.setAssembly track asm).pmtPid = d.pmtPid := by
  cases track <;> rfl

@[simp] theorem videoPid_setAssembly (d : Demux) (track : Track) (asm : Assembly) :
    (d.setAssembly track asm).videoPid = d.videoPid := by
  cases track <;> rfl

@[simp] theorem audioPid_setAssembly (d : Demux) (track : Track) (asm : Assembly) :
    (d.setAssembly track asm).audioPid = d.audioPid := by
  cases track <;> rfl

@[simp] theorem lastCc_setAssembly (d : Demux) (track : Track) (asm : Assembly) :
    (d.setAssembly track asm).lastCc = d.lastCc := by
  cases track <;> rfl

@[simp] theorem continuityErrors_setAssembly (d : Demux) (track : Track) (asm : Assembly) :
    (d.setAssembly track asm).continuityErrors = d.continuityErrors := by
  cases track <;> rfl

@[simp] theorem assembly_setAssembly (d : Demux) (track : Track) (asm : Assembly) :
    (d.setAssembly track asm).assembly track = asm := by
  cases track <;> rfl

theorem assembly_other (d : Demux) (track other : Track) (asm : Assembly) (apart : other ≠ track) :
    (d.setAssembly track asm).assembly other = d.assembly other := by
  cases track <;> cases other <;> first | rfl | exact absurd rfl apart

theorem take_piece (d : Demux) (counts : UInt16 → Nat) (follows : Follows d counts) (cut : Cut)
    (index : Nat) :
    let fed := (d.assembly cut.track).take (cut.pieces.getD index []) (index = 0)
    let taken := d.take (Sent.piece cut index (counts cut.track.pid)).carried
    taken.2 = fed.2.map (fun unit => cut.track.unit unit.1 unit.2) ∧
      Follows taken.1 (Function.update counts cut.track.pid (counts cut.track.pid + 1)) ∧
      taken.1.assembly cut.track = fed.1 ∧
      ∀ other, other ≠ cut.track → taken.1.assembly other = d.assembly other := by
  have smooth := smooth_next d counts follows.counted cut.track.pid
  have plain : cut.track.pid ≠ 0 := by cases cut.track <;> decide
  have unlisted : some pmtPid ≠ some cut.track.pid := by cases cut.track <;> decide
  have seenTuned : Tuned (d.seen cut.track.pid (ccOf (counts cut.track.pid))) :=
    ⟨follows.tuned.pmt, follows.tuned.video, follows.tuned.audio⟩
  have track := trackOf_pid _ seenTuned cut.track
  have pmt : (d.seen cut.track.pid (ccOf (counts cut.track.pid))).pmtPid = some pmtPid :=
    follows.tuned.pmt
  have same : (d.seen cut.track.pid (ccOf (counts cut.track.pid))).assembly = d.assembly := by
    funext other
    cases other <;> rfl
  have taken : d.take (Sent.piece cut index (counts cut.track.pid)).carried =
      let fed := (d.assembly cut.track).take (cut.pieces.getD index []) (index = 0)
      ((d.seen cut.track.pid (ccOf (counts cut.track.pid))).setAssembly cut.track fed.1,
        fed.2.map (fun unit => cut.track.unit unit.1 unit.2)) := by
    rw [Sent.carried, Demux.take]
    dsimp only
    rw [Demux.count_smooth d _ _ smooth, if_neg plain, pmt, if_neg unlisted, track,
      same]
  dsimp only
  rw [taken]
  refine ⟨rfl, ⟨?_, ?_, ?_⟩, assembly_setAssembly _ _ _, ?_⟩
  · exact ⟨by simpa using pmt, by simpa using seenTuned.video, by simpa using seenTuned.audio⟩
  · intro other
    rw [lastCc_setAssembly]
    exact seen_counted d counts follows.counted cut.track.pid other
  · rw [continuityErrors_setAssembly]
    exact follows.errors
  · intro other apart
    rw [assembly_other _ _ _ _ apart, same]

theorem take_pat (d : Demux) (place : Nat) : d.take (Sent.pat place).carried =
    ({ d.countContinuity 0 (ccOf place) with pmtPid := some pmtPid }, []) := by
  have here : (Sent.pat place).carried.pid = 0 := rfl
  rw [Demux.take]
  dsimp only
  rw [if_pos here]
  exact congrArg (·, []) (read_pat _ place)

theorem take_pmt (d : Demux) (profile level : UInt8) (place : Nat)
    (known : (d.countContinuity pmtPid (ccOf place)).pmtPid = some pmtPid) :
    d.take (Sent.pmt profile level place).carried =
      ({ d.countContinuity pmtPid (ccOf place) with
          videoPid := some videoPid
          audioPid := some audioPid }, []) := by
  have apart : (Sent.pmt profile level place).carried.pid ≠ 0 := by
    show pmtPid ≠ 0
    decide
  have listed : (d.countContinuity (Sent.pmt profile level place).carried.pid
      (Sent.pmt profile level place).carried.cc).pmtPid =
        some (Sent.pmt profile level place).carried.pid := known
  rw [Demux.take]
  dsimp only
  rw [if_neg apart, if_pos listed]
  exact congrArg (·, []) (read_pmt _ profile level place)

theorem take_tables (d : Demux) (counts : UInt16 → Nat) (counted : d.Counted counts)
    (errors : d.continuityErrors = 0) (profile level : UInt8) :
    let packets := ((Block.tables profile level).sent counts).map Sent.carried
    Follows (final Demux.take d packets) ((Block.tables profile level).counted counts) ∧
      (∀ track, (final Demux.take d packets).assembly track = d.assembly track) ∧
      (outputs Demux.take d packets).flatten = [] := by
  have apart : pmtPid ≠ 0 := by decide
  have pat := take_pat d (counts 0)
  rw [d.count_smooth _ _ (smooth_next d counts counted 0)] at pat
  have later : ({ d.seen 0 (ccOf (counts 0)) with pmtPid := some pmtPid } : Demux).Counted
      (Function.update counts 0 (counts 0 + 1)) := seen_counted d counts counted 0
  have smooth := smooth_next _ _ later pmtPid
  rw [Function.update_of_ne apart] at smooth
  have same := Demux.count_smooth _ _ _ smooth
  have pmt := take_pmt { d.seen 0 (ccOf (counts 0)) with pmtPid := some pmtPid } profile level
    (counts pmtPid) (by rw [same]; rfl)
  rw [same] at pmt
  have last := seen_counted _ _ later pmtPid
  rw [Function.update_of_ne apart] at last
  simp only [Block.sent, List.map_cons, List.map_nil, final_cons, final_nil, outputs_cons,
    outputs_nil, pat, pmt]
  refine ⟨⟨⟨rfl, rfl, rfl⟩, last, errors⟩, ?_, rfl⟩
  intro track
  cases track <;> rfl

theorem after_before (cut : Cut) (index : Nat) (before : index < cut.last) :
    cut.after index = (cut.begun index, none) := by
  have going : ¬ (cut.track = .audio ∧ index = cut.last) := fun done => by omega
  rw [Cut.after, if_neg going]

/-- A unit as far as one of its pieces: what was there before is done, if it was whole. -/
theorem take_upTo (d : Demux) (counts : UInt16 → Nat) (follows : Follows d counts) (cut : Cut)
    (index : Nat) (within : index ≤ cut.last) :
    let packets := (List.range (index + 1)).map
      (fun i => (Sent.piece cut i (counts cut.track.pid + i)).carried)
    (outputs Demux.take d packets).flatten =
        ((d.assembly cut.track).done.toList ++ (cut.after index).2.toList).map
          (fun unit => cut.track.unit unit.1 unit.2) ∧
      Follows (final Demux.take d packets)
        (Function.update counts cut.track.pid (counts cut.track.pid + (index + 1))) ∧
      (final Demux.take d packets).assembly cut.track = (cut.after index).1 ∧
      ∀ other, other ≠ cut.track →
        (final Demux.take d packets).assembly other = d.assembly other := by
  induction index with
  | zero =>
      obtain ⟨out, next, track, others⟩ := take_piece d counts follows cut 0
      have first : (d.assembly cut.track).take (cut.pieces.getD 0 []) true = _ :=
        take_first (d.assembly cut.track) cut
      rw [decide_eq_true rfl, first] at out track
      have single : (List.range (0 + 1)).map
          (fun i => (Sent.piece cut i (counts cut.track.pid + i)).carried) =
          [(Sent.piece cut 0 (counts cut.track.pid)).carried] := rfl
      dsimp only
      rw [single, outputs_cons, outputs_nil, final_cons, final_nil, List.flatten_singleton]
      exact ⟨out, next, track, others⟩
  | succ index ih =>
      obtain ⟨out, follows', track, others⟩ := ih (by omega)
      rw [after_before cut index within] at out track
      have place : Function.update counts cut.track.pid (counts cut.track.pid + (index + 1))
          cut.track.pid = counts cut.track.pid + (index + 1) := Function.update_self _ _ _
      obtain ⟨out', next, track', others'⟩ := take_piece _ _ follows' cut (index + 1)
      have later : (cut.begun index).take (cut.pieces.getD (index + 1) []) false = _ :=
        take_next cut index within
      rw [track, decide_eq_false (Nat.succ_ne_zero index), later] at out' track'
      rw [place] at out' next track' others'
      rw [Function.update_idem] at next
      dsimp only
      rw [List.range_succ, List.map_append, List.map_singleton, outputs_snoc, final_snoc,
        List.flatten_append, List.flatten_singleton, out, out']
      refine ⟨?_, next, track', fun other apart => (others' other apart).trans (others other apart)⟩
      simp

def videosOf (units : List AccessUnit) : List (List UInt8 × Option Nat) :=
  units.filterMap (fun unit =>
    match unit with
    | .video data ptsUs => some (data, ptsUs)
    | .audio _ _ => none)

def audiosOf (units : List AccessUnit) : List (List UInt8) :=
  units.filterMap (fun unit =>
    match unit with
    | .video _ _ => none
    | .audio data _ => some data)

theorem videosOf_append (front back : List AccessUnit) :
    videosOf (front ++ back) = videosOf front ++ videosOf back := List.filterMap_append

theorem audiosOf_append (front back : List AccessUnit) :
    audiosOf (front ++ back) = audiosOf front ++ audiosOf back := List.filterMap_append

theorem units_video (pairs : List (List UInt8 × Option Nat)) :
    videosOf (pairs.map (fun unit => Track.video.unit unit.1 unit.2)) = pairs ∧
      audiosOf (pairs.map (fun unit => Track.video.unit unit.1 unit.2)) = [] := by
  induction pairs with
  | nil => exact ⟨rfl, rfl⟩
  | cons pair pairs ih => exact ⟨congrArg (pair :: ·) ih.1, ih.2⟩

theorem units_audio (pairs : List (List UInt8 × Option Nat)) :
    videosOf (pairs.map (fun unit => Track.audio.unit unit.1 unit.2)) = [] ∧
      audiosOf (pairs.map (fun unit => Track.audio.unit unit.1 unit.2)) = pairs.map Prod.fst := by
  induction pairs with
  | nil => exact ⟨rfl, rfl⟩
  | cons pair pairs ih => exact ⟨ih.1, congrArg (pair.1 :: ·) ih.2⟩

def Cut.pair (cut : Cut) : List UInt8 × Option Nat := (cut.data, cut.ptsUs)

theorem take_unit (d : Demux) (counts : UInt16 → Nat) (follows : Follows d counts) (cut : Cut) :
    let packets := ((Block.unit cut).sent counts).map Sent.carried
    (outputs Demux.take d packets).flatten =
        ((d.assembly cut.track).done.toList ++ (cut.after cut.last).2.toList).map
          (fun unit => cut.track.unit unit.1 unit.2) ∧
      Follows (final Demux.take d packets) ((Block.unit cut).counted counts) ∧
      (final Demux.take d packets).assembly cut.track = (cut.after cut.last).1 ∧
      ∀ other, other ≠ cut.track →
        (final Demux.take d packets).assembly other = d.assembly other := by
  have all := take_upTo d counts follows cut cut.last le_rfl
  have packets : ((Block.unit cut).sent counts).map Sent.carried =
      (List.range (cut.last + 1)).map
        (fun i => (Sent.piece cut i (counts cut.track.pid + i)).carried) := by
    rw [Block.sent, Cut.sent, List.map_map]
    rfl
  rw [packets]
  exact all

theorem done_begun (cut : Cut) (nonempty : cut.data ≠ []) :
    (cut.begun cut.last).done = some cut.pair := by
  have data := cut.upTo_last
  simp [Assembly.done, Cut.begun, Cut.pair, data, nonempty]

/-- Every unit comes out as it was sent: audio at once, video when the next one starts. -/
theorem take_blocks (blocks : List Block) (d : Demux) (counts : UInt16 → Nat)
    (follows : Follows d counts) (audioDone : (d.assembly .audio).done = none)
    (nonempty : ∀ cut ∈ cutsOf .video blocks, cut.data ≠ []) :
    let packets := (sentOf counts blocks).map Sent.carried
    let units := (outputs Demux.take d packets).flatten
    videosOf units = ((d.assembly .video).done.toList ++ (cutsOf .video blocks).map
      Cut.pair).dropLast ∧
      audiosOf units = (cutsOf .audio blocks).map Cut.data ∧
      (final Demux.take d packets).continuityErrors = 0 := by
  induction blocks generalizing d counts with
  | nil =>
      have few : ((d.assembly .video).done.toList ++ []).dropLast = [] := by
        cases (d.assembly .video).done <;> rfl
      exact ⟨few.symm, rfl, follows.errors⟩
  | cons block blocks ih =>
      have parts : (sentOf counts (block :: blocks)).map Sent.carried =
          (block.sent counts).map Sent.carried ++
            (sentOf (block.counted counts) blocks).map Sent.carried := List.map_append
      have cuts (track : Track) : cutsOf track (block :: blocks) =
          cutsOf track [block] ++ cutsOf track blocks := cutsOf_append track [block] blocks
      rw [cuts .video] at nonempty
      have later (cut : Cut) (member : cut ∈ cutsOf .video blocks) : cut.data ≠ [] :=
        nonempty cut (List.mem_append_right _ member)
      dsimp only
      rw [parts, outputs_append, final_append, List.flatten_append, cuts .video, cuts .audio]
      cases block with
      | tables profile level =>
          obtain ⟨next, same, out⟩ :=
            take_tables d counts follows.counted follows.errors profile level
          have rest := ih _ _ next (by rw [same]; exact audioDone) later
          rw [same] at rest
          rw [out]
          exact rest
      | unit cut =>
          obtain ⟨out, next, track, others⟩ := take_unit d counts follows cut
          rw [out, cutsOf_unit, cutsOf_unit]
          cases kind : cut.track with
          | video =>
              have begun : cut.after cut.last = (cut.begun cut.last, none) := by
                rw [Cut.after, kind, if_neg (by simp)]
              rw [kind, begun] at track
              rw [kind] at others
              obtain ⟨videos, audios, errors⟩ := ih _ _ next
                (by rw [others .audio (by decide)]; exact audioDone) later
              have cutBegun := nonempty cut (List.mem_append_left _ (by simp [cutsOf_unit, kind]))
              rw [track, done_begun cut cutBegun] at videos
              have here := units_video (d.assembly .video).done.toList
              rw [begun]
              simp only [Option.toList_none, List.append_nil]
              rw [videosOf_append, audiosOf_append, here.1, here.2, videos, audios]
              refine ⟨?_, by simp, errors⟩
              simp only [Option.toList_some, List.singleton_append, if_true, List.map_cons]
              exact (List.dropLast_append_of_ne_nil (by simp)).symm
          | audio =>
              have ended : cut.after cut.last = (cut.ended, some cut.pair) := by
                rw [Cut.after, kind, if_pos ⟨rfl, rfl⟩]
                rfl
              rw [kind, ended] at track
              rw [kind] at others
              obtain ⟨videos, audios, errors⟩ := ih _ _ next (by rw [track]; rfl) later
              rw [others .video (by decide)] at videos
              have here := units_audio [cut.pair]
              rw [ended, audioDone]
              simp only [Option.toList_none, Option.toList_some, List.nil_append]
              rw [videosOf_append, audiosOf_append, here.1, here.2, videos, audios]
              refine ⟨by simp, ?_, errors⟩
              simp [Cut.pair]

theorem take_muxed (blocks : List Block)
    (starts : blocks = [] ∨ ∃ profile level rest, blocks = .tables profile level :: rest)
    (nonempty : ∀ cut ∈ cutsOf .video blocks, cut.data ≠ []) :
    let packets := (sentOf (fun _ => 0) blocks).map Sent.carried
    let units := (outputs Demux.take .new packets).flatten
    videosOf units = ((cutsOf .video blocks).map Cut.pair).dropLast ∧
      audiosOf units = (cutsOf .audio blocks).map Cut.data ∧
      (final Demux.take .new packets).continuityErrors = 0 := by
  rcases starts with rfl | ⟨profile, level, rest, rfl⟩
  · exact ⟨rfl, rfl, rfl⟩
  · obtain ⟨next, same, out⟩ := take_tables .new (fun _ => 0) (fun _ => rfl) rfl profile level
    have later := take_blocks rest _ _ next (by rw [same]; rfl) nonempty
    have parts : (sentOf (fun _ => 0) (.tables profile level :: rest)).map Sent.carried =
        ((Block.tables profile level).sent (fun _ => 0)).map Sent.carried ++
          (sentOf ((Block.tables profile level).counted (fun _ => 0)) rest).map Sent.carried :=
      List.map_append
    rw [same] at later
    dsimp only
    rw [parts, outputs_append, final_append, List.flatten_append, out]
    exact later

end Following

end Castr.Miracast.Ts
