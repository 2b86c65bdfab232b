import Castr.Miracast.Loss
import Castr.Miracast.Muxing
import Castr.Miracast.Splicing

/-! The stream of a multiplexer through a network that loses datagrams: what a session emits of it
was sent as it is. -/

namespace Castr.Miracast.Ts

open Castr.Lib.Bytes
open Castr.Lib.Run
open Source.TsMux

section Order

variable (muxed : Cut → Prop)

/-- Packets that are sent one after another, each the next of its stream. -/
def Orderly : (Track → Place) → List Sent → Prop
  | _, [] => True
  | places, sent :: rest => sent.Fits muxed places ∧ Orderly (sent.follow places) rest

def followed (places : Track → Place) (sent : List Sent) : Track → Place :=
  sent.foldl (fun places packet => packet.follow places) places

theorem followed_append (places : Track → Place) (front back : List Sent) :
    followed places (front ++ back) = followed (followed places front) back := List.foldl_append

theorem orderly_append (places : Track → Place) (front back : List Sent) :
    Orderly muxed places (front ++ back) ↔
      Orderly muxed places front ∧ Orderly muxed (followed places front) back := by
  induction front generalizing places with
  | nil => simp [Orderly, followed]
  | cons sent rest ih => simp [Orderly, followed, ih, and_assoc]

theorem orderly_unit (cut : Cut) (of : muxed cut) (places : Track → Place)
    (complete : ∀ before ∈ (places cut.track).prev, before.2 = before.1.last) (count : Nat)
    (within : count ≤ cut.last) :
    let sent := (List.range (count + 1)).map
      (fun index => Sent.piece cut index ((places cut.track).count + index))
    Orderly muxed places sent ∧ followed places sent = Function.update places cut.track
      ⟨some (cut, count), (places cut.track).count + (count + 1)⟩ := by
  induction count with
  | zero => exact ⟨⟨⟨of, rfl, Or.inl ⟨rfl, complete⟩⟩, trivial⟩, rfl⟩
  | succ count ih =>
      obtain ⟨orderly, reached⟩ := ih (by omega)
      have here : Function.update places cut.track
          ⟨some (cut, count), (places cut.track).count + (count + 1)⟩ cut.track =
            ⟨some (cut, count), (places cut.track).count + (count + 1)⟩ :=
              Function.update_self _ _ _
      dsimp only
      rw [List.range_succ, List.map_append, List.map_singleton, orderly_append, followed_append,
        reached]
      refine ⟨⟨orderly, ⟨of, ?_, Or.inr ⟨count, rfl, within, ?_⟩⟩, trivial⟩, ?_⟩
      · rw [here]
      · rw [here]
      · rw [followed, List.foldl_cons, List.foldl_nil, Sent.follow, here, Function.update_idem]
        rfl

/-- Whatever blocks are sent, their packets come in the order of their streams. -/
theorem orderly_sentOf (blocks : List Block) (of : ∀ cut, .unit cut ∈ blocks → muxed cut)
    (counts : UInt16 → Nat) (places : Track → Place)
    (counted : ∀ track, (places track).count = counts (Track.pid track))
    (complete : ∀ track, ∀ before ∈ (places track).prev, before.2 = before.1.last) :
    Orderly muxed places (sentOf counts blocks) := by
  induction blocks generalizing counts places with
  | nil => trivial
  | cons block blocks ih =>
      have rest (cut : Cut) (member : .unit cut ∈ blocks) :=
        of cut (List.mem_cons_of_mem block member)
      rw [sentOf, orderly_append]
      cases block with
      | tables profile level =>
          refine ⟨⟨trivial, trivial, trivial⟩, ih rest _ _ (fun track => ?_) complete⟩
          rw [Block.counted, Function.update_of_ne (by cases track <;> decide),
            Function.update_of_ne (by cases track <;> decide)]
          exact counted track
      | unit cut =>
          obtain ⟨orderly, reached⟩ := orderly_unit muxed cut (of cut List.mem_cons_self) places
            (complete cut.track) cut.last le_rfl
          rw [counted cut.track] at orderly reached
          refine ⟨orderly, ?_⟩
          have same : followed places (Block.sent counts (.unit cut)) = Function.update places
              cut.track ⟨some (cut, cut.last), counts (Track.pid cut.track) + (cut.last + 1)⟩ :=
            reached
          rw [same]
          apply ih rest
          · intro track
            by_cases mine : track = cut.track
            · subst mine
              rw [Function.update_self, Block.counted, Function.update_self]
              rfl
            · rw [Function.update_of_ne mine, Block.counted,
                Function.update_of_ne (mt (pid_inj track cut.track) mine)]
              exact counted track
          · intro track before there
            by_cases mine : track = cut.track
            · subst mine
              rw [Function.update_self] at there
              obtain rfl := Option.some.inj there
              rfl
            · rw [Function.update_of_ne mine] at there
              exact complete track before there

end Order

section Run

def markOf (flagged : List UInt8 × Bool) : Mark where
  pid := pidOf (flagged.1.getD 1 0) (flagged.1.getD 2 0)
  start := flagged.1.getD 1 0 &&& 0x40 ≠ 0
  came := flagged.2

theorem hear_sent (muxed : Cut → Prop) (l : Listener) (places : Track → Place) (d : Demux)
    (hears : Hears muxed l places d) (sent : Sent) (fits : sent.Fits muxed places)
    (noticed : sent.carried.pid ∈ [videoPid, audioPid] →
      (l.streams sent.carried.pid).Noticed (sent.carried.pid = audioPid) sent.carried.start) :
    let taken := d.take sent.carried
    Hears muxed (l.step ⟨sent.carried.pid, sent.carried.start, true⟩) (sent.follow places) taken.1 ∧
      ∀ unit ∈ taken.2, ∃ other, muxed other ∧ unit = other.unit := by
  cases sent with
  | pat place =>
      obtain ⟨heard, silent⟩ := hear_pat muxed l places d hears place
      exact ⟨heard, fun unit member => absurd (silent ▸ member) (by simp)⟩
  | pmt profile level place =>
      obtain ⟨heard, silent⟩ := hear_pmt muxed l places d hears profile level place
      exact ⟨heard, fun unit member => absurd (silent ▸ member) (by simp)⟩
  | piece cut index place =>
      have listed : Track.pid cut.track ∈ [videoPid, audioPid] := by cases cut.track <;> decide
      have audio : decide (Track.pid cut.track = audioPid) = decide (cut.track = .audio) := by
        cases cut.track <;> decide
      have known : (l.streams (Track.pid cut.track)).Noticed (Track.pid cut.track = audioPid)
        (index = 0) := noticed listed
      rw [audio] at known
      exact hear_piece muxed l places d hears cut index place fits known

theorem run_heard (muxed : Cut → Prop) (flagged : List (List UInt8 × Bool)) (sents : List Sent)
    (carry : List.Forall₂ (fun packet sent => Carries packet.1 (Sent.carried sent)) flagged sents)
    (l : Listener) (places : Track → Place) (d : Demux) (hears : Hears muxed l places d)
    (orderly : Orderly muxed places sents) (noticed : l.Noticed (flagged.map markOf)) :
    ∀ unit ∈ (d.pushAll ((flagged.filter Prod.snd).map Prod.fst)).2,
      ∃ cut, muxed cut ∧ unit = cut.unit := by
  induction carry generalizing l places d with
  | nil => simp [Demux.pushAll]
  | @cons packet sent flagged sents carries _ ih =>
      obtain ⟨bytes, came⟩ := packet
      have mark : markOf (bytes, came) = ⟨sent.carried.pid, sent.carried.start, came⟩ := by
        rw [markOf, carries.pid, carries.start]
      rw [List.map_cons, mark] at noticed
      cases came with
      | false =>
          have missed := miss_sent muxed l places d hears sent orderly.1
          rw [List.filter_cons_of_neg (by simp)]
          exact ih _ _ d missed orderly.2 noticed.2
      | true =>
          obtain ⟨heard, sound⟩ := hear_sent muxed l places d hears sent orderly.1 (noticed.1 rfl)
          rw [List.filter_cons_of_pos rfl, List.map_cons, Demux.pushAll,
            push_carries d bytes sent.carried carries]
          intro unit member
          rcases List.mem_append.mp member with here | later
          · exact sound unit here
          · exact ih _ _ _ heard orderly.2 noticed.2 unit later

end Run

theorem hears_new (muxed : Cut → Prop) :
    Hears muxed .new (fun _ => ⟨none, 0⟩) .new := by
  refine ⟨rfl, rfl, rfl, fun _ _ => rfl, fun track =>
    ⟨fun whole => ?_, fun _ => ?_, fun whole => ?_⟩⟩
  · exact absurd whole (by simp [Listener.new, Hearing.new])
  · cases track <;> exact Or.inl rfl
  · exact absurd whole (by simp [Listener.new, Hearing.new])

theorem unit_video (cut : Cut) (data : List UInt8) (ptsUs : Option Nat)
    (same : .video data ptsUs = cut.unit) :
    cut.track = .video ∧ data = cut.data ∧ ptsUs = cut.ptsUs := by
  rw [Cut.unit] at same
  cases track : cut.track with
  | video =>
      rw [track] at same
      obtain ⟨whole, time⟩ := AccessUnit.video.inj same
      exact ⟨rfl, whole, time⟩
  | audio =>
      rw [track] at same
      exact absurd same (by simp [Track.unit])

theorem unit_audio (cut : Cut) (data : List UInt8) (ptsUs : Option Nat)
    (same : .audio data ptsUs = cut.unit) : cut.track = .audio ∧ data = cut.data := by
  rw [Cut.unit] at same
  cases track : cut.track with
  | video =>
      rw [track] at same
      exact absurd same (by simp [Track.unit])
  | audio =>
      rw [track] at same
      exact ⟨rfl, (AccessUnit.audio.inj same).1⟩

theorem mem_cutsOf (track : Track) (cut : Cut) (blocks : List Block) (member : .unit cut ∈ blocks)
    (mine : cut.track = track) : cut ∈ cutsOf track blocks :=
  List.mem_filterMap.mpr ⟨.unit cut, member, if_pos mine⟩

section Datagrams

/-- The packets of the datagrams, and whether theirs was among those that came. -/
def flagged (got : List Nat) : Nat → List (List UInt8) → List (List UInt8 × Bool)
  | _, [] => []
  | index, payload :: payloads =>
      (chunks packetLen payload).map (fun packet => (packet, decide (index ∈ got))) ++
        flagged got (index + 1) payloads

theorem flagged_packets (got : List Nat) (index : Nat) (payloads : List (List UInt8)) :
    (flagged got index payloads).map Prod.fst = payloads.flatMap (chunks packetLen) := by
  induction payloads generalizing index with
  | nil => rfl
  | cons payload payloads ih =>
      rw [flagged, List.map_append, ih, List.map_map, List.flatMap_cons]
      congr 1
      exact List.map_id _

theorem flagged_all (packets : List (List UInt8)) :
    ((packets.map (fun packet => (packet, true))).filter Prod.snd).map Prod.fst = packets := by
  induction packets with
  | nil => rfl
  | cons packet packets ih => exact congrArg (packet :: ·) ih

theorem flagged_came (got : List Nat) (index : Nat) (payloads : List (List UInt8)) :
    ((flagged got index payloads).filter Prod.snd).map Prod.fst =
      ((List.range' index payloads.length).filter (· ∈ got)).flatMap
        (fun place => chunks packetLen (payloads.getD (place - index) [])) := by
  induction payloads generalizing index with
  | nil => rfl
  | cons payload payloads ih =>
      have rest : ((List.range' (index + 1) payloads.length).filter (· ∈ got)).flatMap
          (fun place => chunks packetLen (payloads.getD (place - (index + 1)) [])) =
          ((List.range' (index + 1) payloads.length).filter (· ∈ got)).flatMap
            (fun place => chunks packetLen ((payload :: payloads).getD (place - index) [])) := by
        apply List.flatMap_congr
        intro place member
        have above := (List.mem_range'_1.mp (List.mem_of_mem_filter member)).1
        have next : place - index = place - (index + 1) + 1 := by omega
        rw [next, List.getD_cons_succ]
      rw [flagged, List.filter_append, List.map_append, ih, rest, List.length_cons,
        List.range'_succ]
      by_cases came : index ∈ got
      · rw [List.filter_cons_of_pos (by simpa using came), List.flatMap_cons, Nat.sub_self,
          List.getD_cons_zero]
        rw [decide_eq_true came, flagged_all]
      · rw [List.filter_cons_of_neg (by simpa using came)]
        simp [came]

theorem noticed_front (got front : List Nat) (bound : Nat)
    (below : ∀ index < bound, index ∈ front ↔ index ∈ got)
    (above : ∀ index, bound ≤ index → index ∉ front) (payloads : List (List UInt8)) (index : Nat)
    (l : Listener) (noticed : l.Noticed ((flagged got index payloads).map markOf)) :
    l.Noticed ((flagged front index payloads).map markOf) := by
  induction payloads generalizing index l with
  | nil => trivial
  | cons payload payloads ih =>
      rw [flagged, List.map_append, Listener.noticed_append] at noticed ⊢
      by_cases inside : index < bound
      · have same : decide (index ∈ front) = decide (index ∈ got) := by
          simpa using below index inside
        rw [same]
        exact ⟨noticed.1, ih (index + 1) _ noticed.2⟩
      · have lost (place : Nat) (far : bound ≤ place) (rest : List (List UInt8)) :
            ∀ mark ∈ (flagged front place rest).map markOf, mark.came = false := by
          induction rest generalizing place with
          | nil => simp [flagged]
          | cons payload rest later =>
              rw [flagged, List.map_append, List.forall_mem_append]
              refine ⟨?_, later (place + 1) (by omega)⟩
              intro mark member
              simp only [List.map_map, List.mem_map] at member
              obtain ⟨packet, -, rfl⟩ := member
              simpa [markOf] using above place far
        have all := lost index (by omega) (payload :: payloads)
        rw [flagged, List.map_append, List.forall_mem_append] at all
        exact ⟨Listener.noticed_none l _ all.1, Listener.noticed_none _ _ all.2⟩

end Datagrams

end Castr.Miracast.Ts

namespace Castr.Miracast

open Castr.Lib.Bytes
open Castr.Lib.Run
open Rtp (groupsOf packetAt stamped)
open Source.RtpPack (Packetizer)
open Source.TsMux

/-- What is sent is a stream, in whole transport packets. -/
structure Sends (stream : List UInt8) (sends : List (List UInt8 × UInt32)) : Prop where
  all : sends.flatMap Prod.fst = stream
  whole : ∀ send ∈ sends, Ts.packetLen ∣ send.1.length

/-- A new session, to which some of the datagrams come in their order while it plays, none of them
half the circle ahead of the last that came. -/
structure Receives (s : Session) (events : List SessionEvent) (datagrams : List (List UInt8))
    (got : List Nat) : Prop where
  reorder : s.reorder = .new reorderWindow
  demux : s.demux = .new
  came : s.heard events = got.map (fun index => datagrams.getD index [])
  sorted : got.Pairwise (· < ·)
  inside : ∀ index ∈ got, index < datagrams.length
  near : Rtp.Near (reorderWindow + 1) got

theorem filter_range (count : Nat) (got : List Nat) (sorted : got.Pairwise (· < ·))
    (inside : ∀ index ∈ got, index < count) : (List.range' 0 count).filter (· ∈ got) = got := by
  have ranged : ((List.range' 0 count).filter (· ∈ got)).Pairwise (· < ·) :=
    List.Pairwise.filter _ List.pairwise_lt_range'
  apply ranged.eq_of_mem_iff sorted
  intro index
  simp only [List.mem_filter, List.mem_range'_1, decide_eq_true_iff]
  exact ⟨And.right, fun member => ⟨⟨Nat.zero_le _, by simpa using inside index member⟩, member⟩⟩

theorem take_bound (limit count : Nat) (got : List Nat) (sorted : got.Pairwise (· < ·))
    (inside : ∀ index ∈ got, index < limit) :
    ∃ bound, (∀ index < bound, index ∈ got.take count ↔ index ∈ got) ∧
      ∀ index, bound ≤ index → index ∉ got.take count := by
  have parts := List.take_append_drop count got
  cases rest : got.drop count with
  | nil =>
      rw [rest, List.append_nil] at parts
      rw [parts]
      exact ⟨limit, fun _ _ => Iff.rfl, fun index far member => by
        have below := inside index member
        omega⟩
  | cons bound later =>
      rw [rest] at parts
      rw [← parts] at sorted
      obtain ⟨-, behind, apart⟩ := List.pairwise_append.mp sorted
      refine ⟨bound, fun index below => ?_, fun index far member => ?_⟩
      · conv_rhs => rw [← parts]
        rw [List.mem_append]
        refine ⟨Or.inl, fun either => either.elim id (fun member => ?_)⟩
        rcases List.mem_cons.mp member with same | beyond
        · omega
        · have order := (List.pairwise_cons.mp behind).1 index beyond
          omega
      · have order := apart index member bound List.mem_cons_self
        omega

theorem packets_of_groups (sends : List (List UInt8 × UInt32)) (stream : List UInt8)
    (sent : Sends stream sends) :
    ((groupsOf sends).map Prod.fst).flatMap (chunks Ts.packetLen) = chunks Ts.packetLen stream := by
  have units : ∀ group ∈ groupsOf sends, Ts.packetLen ∣ group.1.length := by
    intro group member
    obtain ⟨send, inside, cut⟩ := List.mem_flatMap.mp member
    obtain ⟨slice, piece, rfl⟩ := List.mem_map.mp cut
    exact chunks_dvd Ts.packetLen _ send.1 (by decide) (sent.whole send inside) slice piece
  have bytes : (((groupsOf sends).map Prod.fst).flatMap (chunks Ts.packetLen)).flatten =
      stream := by
    rw [← sent.all, ← Rtp.payloads_of_groups, List.flatMap_map]
    induction groupsOf sends with
    | nil => rfl
    | cons group groups ih =>
        rw [List.flatMap_cons, List.flatten_append, ih, chunks_flatten _ _ (by decide),
          List.flatMap_cons]
  have full : ∀ slice ∈ ((groupsOf sends).map Prod.fst).flatMap (chunks Ts.packetLen),
      slice.length = Ts.packetLen := by
    intro slice member
    obtain ⟨payload, inside, cut⟩ := List.mem_flatMap.mp member
    obtain ⟨group, grouped, rfl⟩ := List.mem_map.mp inside
    exact chunks_full Ts.packetLen group.1 (by decide) (units group grouped) slice cut
  have again := chunks_of_slices Ts.packetLen _ (by decide) full
  rwa [bytes, eq_comm] at again

section Media

variable (p : Packetizer) (sends : List (List UInt8 × UInt32)) (s : Session)
  (events : List SessionEvent) (got : List Nat) (receives : Receives s events
    (p.pushAll sends).2 got)

include receives

theorem receives_below : ∀ index ∈ got, index < (groupsOf sends).length := by
  have total : (stamped p (groupsOf sends)).length = (groupsOf sends).length := List.length_mapIdx
  have inside := receives.inside
  rwa [Rtp.pushAll_stamped, total] at inside

theorem media_of_datagrams : (outputs Session.step s events).flatten.filterMap SinkEvent.media =
    (Ts.Demux.new.pushAll ((outputs Rtp.Reorder.push (.new reorderWindow)
      (got.map (packetAt p.sequence (groupsOf sends)))).flatten.flatMap
        (fun packet => chunks Ts.packetLen packet.payload))).2 := by
  have inside := receives_below p sends s events got receives
  have parsed : (s.heard events).map Rtp.parse =
      (got.map (packetAt p.sequence (groupsOf sends))).map some := by
    rw [receives.came, Rtp.pushAll_stamped, List.map_map, List.map_map]
    apply List.map_congr_left
    intro index member
    exact Rtp.parse_stamped p (groupsOf sends) index (inside index member)
  have typed : ∀ packet ∈ got.map (packetAt p.sequence (groupsOf sends)),
      packet.payloadType = ptMp2t := by
    intro packet member
    obtain ⟨index, -, rfl⟩ := List.mem_map.mp member
    rfl
  rw [Session.run_media events s _ parsed typed, receives.reorder, receives.demux]

theorem media_of_stream :
    ∃ count, (outputs Session.step s events).flatten.filterMap SinkEvent.media =
      (Ts.Demux.new.pushAll (((Ts.flagged (got.take count) 0
        ((groupsOf sends).map Prod.fst)).filter Prod.snd).map Prod.fst)).2 := by
  obtain ⟨count, lost, -, handed, -⟩ := Rtp.handed_front reorderWindow p.sequence
    (packetAt p.sequence (groupsOf sends)) (fun _ => rfl) got receives.sorted receives.near
  refine ⟨count, ?_⟩
  have inside := receives_below p sends s events got receives
  have front : ((List.range' 0 ((groupsOf sends).map Prod.fst).length).filter
      (· ∈ got.take count)) = got.take count := by
    rw [List.length_map]
    exact filter_range _ _ (receives.sorted.sublist (List.take_sublist count got))
      (fun index member => inside index (List.mem_of_mem_take member))
  have same (index : Nat) : (packetAt p.sequence (groupsOf sends) index).payload =
      ((groupsOf sends).map Prod.fst).getD (index - 0) [] := by
    simp only [packetAt, Nat.sub_zero, List.getD_eq_getElem?_getD, List.getElem?_map]
    cases (groupsOf sends)[index]? <;> rfl
  rw [media_of_datagrams p sends s events got receives, handed, Ts.flagged_came, front,
    List.flatMap_map]
  simp only [same]

end Media

/-- Where every loss is noticed, a session emits nothing but units that were sent, as they were. -/
theorem intact (ops : List Muxer.Op) (p : Packetizer) (sends : List (List UInt8 × UInt32))
    (sent : Sends (outputs Muxer.step .new ops).flatten sends) (s : Session)
    (events : List SessionEvent) (got : List Nat)
    (receives : Receives s events (p.pushAll sends).2 got)
    (noticed : Ts.Listener.new.Noticed
      ((Ts.flagged got 0 ((groupsOf sends).map Prod.fst)).map Ts.markOf)) :
    let emitted := (outputs Session.step s events).flatten
    (∀ data ptsUs, .video data ptsUs ∈ emitted → ∃ push ∈ ops.flatMap Muxer.Op.videos,
      data = push.1 ∧ ptsUs = some (Ts.readPts (ptsBytes (push.2 * 9 / 100).toNat))) ∧
    ∃ frames : List (List Int16), (∀ frame ∈ frames, frame.length = Source.Lpcm.samplesPerFrame) ∧
      frames.flatten ++ (final Muxer.step .new ops).audioPending = ops.flatMap Muxer.Op.samples ∧
      ∀ data ptsUs, .audio data ptsUs ∈ emitted → ∃ frame ∈ frames, data =
        Source.Lpcm.frame frame := by
  obtain ⟨blocks, frames, muxes, content⟩ := run_muxes ops .new (fun _ => 0) (fun _ => rfl)
  obtain ⟨count, media⟩ := media_of_stream p sends s events got receives
  obtain ⟨bound, below, above⟩ := take_bound _ count got receives.sorted receives.inside
  have orderly := Ts.orderly_sentOf (fun cut => .unit cut ∈ blocks) blocks (fun _ member => member)
    (fun _ => 0) (fun _ => ⟨none, 0⟩) (fun _ => rfl) (fun _ _ there => absurd there (by simp))
  have carry : List.Forall₂ (fun packet sent => Ts.Carries packet.1 (Ts.Sent.carried sent))
      (Ts.flagged (got.take count) 0 ((groupsOf sends).map Prod.fst))
      (Ts.sentOf (fun _ => 0) blocks) := by
    have all := Ts.emits_chunks _ _ muxes.emits
    rw [← packets_of_groups sends _ sent, ← Ts.flagged_packets (got.take count) 0,
      List.forall₂_map_left_iff, List.forall₂_map_right_iff] at all
    exact all
  have heard := Ts.run_heard (fun cut => .unit cut ∈ blocks) _ _ carry .new _ .new
    (Ts.hears_new _) orderly (Ts.noticed_front got _ bound below above _ 0 _ noticed)
  rw [← media] at heard
  have units (event : SinkEvent) (unit : Ts.AccessUnit) (same : event.media = some unit)
      (member : event ∈ (outputs Session.step s events).flatten) :=
    heard unit (List.mem_filterMap.mpr ⟨event, member, same⟩)
  refine ⟨fun data ptsUs member => ?_, frames, content.whole, content.left,
    fun data ptsUs member => ?_⟩
  · obtain ⟨cut, inside, same⟩ := units _ _ rfl member
    obtain ⟨track, whole, time⟩ := Ts.unit_video cut data ptsUs same
    obtain ⟨push, pushed, video⟩ := forall₂_mem _ _ content.video cut
      (Ts.mem_cutsOf .video cut blocks inside track)
    exact ⟨push, pushed, whole.trans video.1, time.trans video.2⟩
  · obtain ⟨cut, inside, same⟩ := units _ _ rfl member
    obtain ⟨track, whole⟩ := Ts.unit_audio cut data ptsUs same
    have among : data ∈ frames.map Source.Lpcm.frame := by
      rw [← content.audio, whole]
      exact List.mem_map_of_mem (Ts.mem_cutsOf .audio cut blocks inside track)
    obtain ⟨frame, inside, rfl⟩ := List.mem_map.mp among
    exact ⟨frame, inside, rfl⟩

section Examples

def shipped (ops : List Muxer.Op) : List (List UInt8 × UInt32) :=
  (outputs Muxer.step .new ops).map (fun bytes => (bytes, 0))

def awake : Session :=
  { Session.new ⟨.only720p30, .lpcm48kStereo, ⟨19000⟩, 8000, false, false⟩ "1" with
    playing := true }

theorem shipped_sends (ops : List Muxer.Op)
    (whole : ∀ send ∈ shipped ops, Ts.packetLen ∣ send.1.length) :
    Sends (outputs Muxer.step .new ops).flatten (shipped ops) := by
  refine ⟨?_, whole⟩
  rw [shipped, List.flatMap_map]
  exact List.flatten_eq_flatMap.symm

theorem receives_awake (p : Packetizer) (sends : List (List UInt8 × UInt32)) (count : Nat)
    (total : (groupsOf sends).length = count) (small : count ≤ 2 ^ 15) (got : List Nat)
    (sorted : got.Pairwise (· < ·)) (inside : ∀ index ∈ got, index < count) :
    let datagrams := (p.pushAll sends).2
    Receives awake ((got.map (fun index => datagrams.getD index [])).map (fun bytes =>
      .datagram bytes 0))
      datagrams got := by
  have length : (p.pushAll sends).2.length = count := by
    rw [Rtp.pushAll_stamped, stamped, List.length_mapIdx, total]
  refine ⟨rfl, rfl, Session.heard_datagrams awake rfl _ 0, sorted, ?_, ?_⟩
  · rw [length]
    exact inside
  · intro front index back split other _
    have below := inside index (by simp [split])
    omega

/-- One datagram of four is lost, and the loss is noticed. -/
theorem intact_one_lost :
    let sends := shipped [.video [7] 0, .video [8] 0, .video [9] 0, .video [6] 0]
    let datagrams := ((Packetizer.new 0).pushAll sends).2
    let events := ([0, 1, 3].map (fun index => datagrams.getD index [])).map
      (fun bytes => SessionEvent.datagram bytes 0)
    ∀ data ptsUs, .video data ptsUs ∈ (outputs Session.step awake events).flatten →
      data ∈ [[7], [8], [9], [6]] := by
  have total :
    (groupsOf (shipped [.video [7] 0, .video [8] 0, .video [9] 0, .video [6] 0])).length =
      4 := by decide +kernel
  intro sends datagrams events data ptsUs member
  have whole := (intact [.video [7] 0, .video [8] 0, .video [9] 0, .video [6] 0] (.new 0) sends
    (shipped_sends _ (by decide +kernel)) awake events [0, 1, 3]
    (receives_awake (.new 0) sends 4 total (by decide) [0, 1, 3] (by decide) (by decide))
    (by decide +kernel)).1 data ptsUs member
  obtain ⟨push, pushed, rfl, -⟩ := whole
  exact List.mem_map_of_mem pushed

end Examples

section Hidden

/-- A unit of seven packets, and others of one packet each. -/
def lengthy : List Muxer.Op := .video (List.replicate 1083 7) 0 :: List.replicate 47 (.video [9] 0)

/-- Of its datagrams the first five packets come, and then sixteen packets of the stream are lost.
-/
def survivors : List Nat := 0 :: List.range' 16 33

theorem survivors_handed :
    (outputs Rtp.Reorder.push (.new reorderWindow)
        (survivors.map (packetAt 0 (groupsOf (shipped lengthy))))).flatten =
      survivors.map (packetAt 0 (groupsOf (shipped lengthy))) := by
  have near : Rtp.Near (reorderWindow + 1) survivors := by
    intro front index back split other _
    have small : ∀ index ∈ survivors, index < 2 ^ 15 := by decide
    have below := small index (by simp [split])
    omega
  obtain ⟨count, -, -, handed, fits, -⟩ := Rtp.handed_front reorderWindow 0
    (packetAt 0 (groupsOf (shipped lengthy))) (fun _ => rfl) survivors (by decide) near
  have all : (outputs Rtp.Reorder.push (.new reorderWindow)
      (survivors.map (packetAt 0 (groupsOf (shipped lengthy))))).flatten.length =
        survivors.length := by decide +kernel
  rw [handed, List.length_map, List.length_take] at all
  have whole : survivors.take count = survivors := List.take_of_length_le (by omega)
  rw [handed, whole]

theorem lengthy_cut : (Ts.Demux.new.pushAll
    ((([0, 16] : List Nat).map (packetAt 0 (groupsOf (shipped lengthy)))).flatMap
      (fun packet => chunks Ts.packetLen packet.payload))).2.any (fun unit =>
        match unit with
        | .video data _ => data.length = 898
        | .audio _ _ => false) = true := by
  decide +kernel

/-- Sixteen packets of one stream in a row are lost, and a unit comes out without its end. -/
theorem intact_hidden :
    let sends := shipped lengthy
    let datagrams := ((Packetizer.new 0).pushAll sends).2
    let events := (survivors.map (fun index => datagrams.getD index [])).map
      (fun bytes => SessionEvent.datagram bytes 0)
    Sends (outputs Muxer.step .new lengthy).flatten sends ∧
      Receives awake events datagrams survivors ∧
      ∃ data ptsUs, .video data ptsUs ∈ (outputs Session.step awake events).flatten ∧
        ∀ push ∈ lengthy.flatMap Muxer.Op.videos, data ≠ push.1 := by
  have total : (groupsOf (shipped lengthy)).length = 49 := by decide +kernel
  intro sends datagrams events
  have receives : Receives awake events datagrams survivors :=
    receives_awake (.new 0) sends 49 total (by decide) survivors (by decide) (by decide)
  refine ⟨shipped_sends lengthy (by decide +kernel), receives, ?_⟩
  have media := media_of_datagrams (.new 0) sends awake events survivors receives
  have front : survivors = [0, 16] ++ List.range' 17 32 := by decide
  rw [Packetizer.new, survivors_handed, front, List.map_append, List.flatMap_append,
    Ts.pushAll_append] at media
  obtain ⟨unit, first, short⟩ := List.any_eq_true.mp lengthy_cut
  have member : unit ∈ (outputs Session.step awake events).flatten.filterMap SinkEvent.media := by
    rw [media]
    exact List.mem_append_left _ first
  obtain ⟨event, emitted, same⟩ := List.mem_filterMap.mp member
  cases event with
  | video data ptsUs =>
      obtain rfl := Option.some.inj same
      refine ⟨data, ptsUs, emitted, fun push pushed whole => ?_⟩
      have long : ∀ push ∈ lengthy.flatMap Muxer.Op.videos, push.1.length ≠ 898 := by
        decide +kernel
      exact long push pushed (whole ▸ of_decide_eq_true short)
  | audio data ptsUs =>
      obtain rfl := Option.some.inj same
      exact absurd short (by simp)
  | _ => exact absurd same (by simp [SinkEvent.media])

end Hidden

end Castr.Miracast
