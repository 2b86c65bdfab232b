import Castr.Miracast.Intact
import Castr.Miracast.Keyframes
import Mathlib.Algebra.BigOperators.Ring.List

/-! A cast to a display from end to end: what the sender's loop multiplexes and sends, and what the
session at the other end makes of it where every datagram comes. -/

namespace Castr.Sender.Miracast

open Castr.Lib.Run
open Castr.Miracast
open Castr.Miracast.Source.RtpPack (Packetizer)
open Castr.Miracast.Source.TsMux

/-- What reaches the loop while it casts: units of the capture, and the display that says play. -/
inductive Media where
  | video (data : List UInt8) (ptsUs : UInt64)
  | audio (samples : List Int16) (ptsUs : UInt64)
  | play (profile level : Option UInt8)
  deriving DecidableEq, Repr

structure Outgoing where
  muxer : Muxer
  packetizer : Packetizer
  deriving DecidableEq, Repr

def stamp (ptsUs : UInt64) : UInt32 := (ptsUs * 9 / 100).toUInt32

namespace Outgoing

def new (ssrc : UInt32) : Outgoing := ⟨.new, .new ssrc⟩

def ship (o : Outgoing) (packets : Muxer × List UInt8) (ptsUs : UInt64) :
    Outgoing × List (List UInt8) :=
  let datagrams := o.packetizer.push packets.2 (stamp ptsUs)
  (⟨packets.1, datagrams.1⟩, datagrams.2)

def step (o : Outgoing) : Media → Outgoing × List (List UInt8)
  | .video data ptsUs => o.ship (o.muxer.pushVideo data ptsUs) ptsUs
  | .audio samples ptsUs => o.ship (o.muxer.pushAudio samples ptsUs) ptsUs
  | .play profile level =>
      ({ o with muxer := o.muxer.setH264Format (profile.getD 0x01) (level.getD 0x01) }, [])

end Outgoing

namespace Media

def op : Media → Muxer.Op
  | .video data ptsUs => .video data ptsUs
  | .audio samples ptsUs => .audio samples ptsUs
  | .play profile level => .format (profile.getD 0x01) (level.getD 0x01)

def ptsUs : Media → UInt64
  | .video _ ptsUs => ptsUs
  | .audio _ ptsUs => ptsUs
  | .play _ _ => 0

end Media

/-- The packets of each unit with the stamp they go out under. -/
def sendsOf (m : Muxer) : List Media → List (List UInt8 × UInt32)
  | [] => []
  | unit :: units =>
      ((m.step unit.op).2, stamp unit.ptsUs) :: sendsOf (m.step unit.op).1 units

theorem push_nothing (p : Packetizer) (timestamp : UInt32) : p.push [] timestamp = (p, []) := rfl

theorem step_muxer (o : Outgoing) (unit : Media) :
    o.step unit = o.ship (o.muxer.step unit.op) unit.ptsUs := by
  cases unit with
  | play profile level => simp [Outgoing.step, Outgoing.ship, Media.op, Muxer.step, push_nothing]
  | _ => rfl

theorem run_sends (units : List Media) (o : Outgoing) :
    (outputs Outgoing.step o units).flatten =
        (o.packetizer.pushAll (sendsOf o.muxer units)).2 ∧
      (final Outgoing.step o units).muxer =
        final Muxer.step o.muxer (units.map Media.op) := by
  induction units generalizing o with
  | nil => exact ⟨rfl, rfl⟩
  | cons unit units ih =>
      obtain ⟨sent, last⟩ := ih (o.step unit).1
      rw [outputs_cons, List.flatten_cons, final_cons, List.map_cons, final_cons, sent, last,
        step_muxer]
      exact ⟨rfl, rfl⟩

theorem sends_stream (units : List Media) (m : Muxer) :
    (sendsOf m units).flatMap Prod.fst =
      (outputs Muxer.step m (units.map Media.op)).flatten := by
  induction units generalizing m with
  | nil => rfl
  | cons unit units ih =>
      rw [sendsOf, List.flatMap_cons, ih, List.map_cons, outputs_cons, List.flatten_cons]

theorem sends_whole (units : List Media) (m : Muxer) (counts : UInt16 → Nat)
    (counted : m.Counted counts) : ∀ send ∈ sendsOf m units, Ts.packetLen ∣ send.1.length := by
  induction units generalizing m counts with
  | nil => simp [sendsOf]
  | cons unit units ih =>
      obtain ⟨blocks, frames, muxes, -⟩ := step_muxes m counts counted unit.op
      rw [sendsOf, List.forall_mem_cons]
      refine ⟨?_, ih _ _ muxes.counted⟩
      obtain ⟨packets, joined, carry⟩ := muxes.emits
      dsimp only
      rw [joined, List.length_flatten]
      apply List.dvd_sum
      intro length member
      obtain ⟨packet, inside, rfl⟩ := List.mem_map.mp member
      rw [(Ts.forall₂_whole _ _ carry packet inside).1]

end Castr.Sender.Miracast

namespace Castr.Miracast

open Castr.Lib.Bytes
open Castr.Lib.Run
open Castr.Miracast.Rtp (Arrives NoneFarAhead groupsOf packetAt stamped)
open Castr.Miracast.Source.RtpPack (Packetizer)
open Castr.Miracast.Source.TsMux
open Castr.Sender.Miracast (Media Outgoing sendsOf)

namespace Session

theorem lost_step (s : Session) (event : SessionEvent) : s.lost ≤ (s.step event).1.lost := by
  by_cases unheard : s.heard [event] = []
  · exact (lost_aside s _ (aside_step s event unheard)).ge
  · cases event with
    | datagram bytes now =>
        cases read : s.packetOf bytes with
        | none => rw [datagram_unread s bytes now read]
        | some packet =>
            rw [(datagram_parts s bytes now packet read).1]
            exact lost_takeMedia s packet now
    | _ => exact absurd rfl unheard

theorem lost_run (events : List SessionEvent) (s : Session) :
    s.lost ≤ (final step s events).lost := by
  induction events generalizing s with
  | nil => exact Nat.le_refl s.lost
  | cons event events ih => exact (s.lost_step event).trans (ih _)

/-- Over a whole run, the window and the demultiplexer are where the packets alone bring them. -/
theorem run_path (events : List SessionEvent) (s : Session) (packets : List Rtp.Packet)
    (parsed : (s.heard events).map Rtp.parse = packets.map some)
    (typed : ∀ packet ∈ packets, packet.payloadType = ptMp2t) :
    (final step s events).reorder = final Rtp.Reorder.push s.reorder packets ∧
      (final step s events).demux =
        (s.demux.pushAll ((outputs Rtp.Reorder.push s.reorder packets).flatten.flatMap
          (fun p => chunks Ts.packetLen p.payload))).1 := by
  induction events generalizing s packets with
  | nil =>
      have none : packets = [] := by simpa [heard] using parsed.symm
      subst none
      exact ⟨rfl, rfl⟩
  | cons event events ih =>
      have first : s.heard (event :: events) = s.heard [event] ++ (s.step event).1.heard
          events := by
        simp [heard]
      rw [first] at parsed
      rw [final_cons]
      by_cases unheard : s.heard [event] = []
      · have aside := aside_step s event unheard
        rw [unheard, List.nil_append] at parsed
        have later := ih _ packets parsed typed
        rwa [aside.reorder, aside.demux] at later
      · cases event with
        | datagram bytes now =>
            by_cases playing : s.playing = true
            · have here : s.heard [.datagram bytes now] = [bytes] := by simp [heard, playing]
              rw [here] at parsed
              cases packets with
              | nil => simp at parsed
              | cons packet rest =>
                  obtain ⟨now_, later⟩ := List.cons.inj parsed
                  obtain ⟨reorder, demux, -⟩ := datagram_media s bytes now packet playing now_
                    (typed packet List.mem_cons_self)
                  obtain ⟨window, stream⟩ := ih _ rest later
                    (fun other member => typed other (List.mem_cons_of_mem packet member))
                  rw [window, stream, reorder, demux, final_cons, outputs_cons, List.flatten_cons,
                    List.flatMap_append, Ts.pushAll_append]
                  exact ⟨rfl, rfl⟩
            · exact absurd (by simp [heard, playing]) unheard
        | _ => exact absurd rfl unheard

end Session

theorem handed_chunks (start : UInt16) (sends : List (List UInt8 × UInt32)) (stream : List UInt8)
    (sent : Sends stream sends) :
    ((List.range (groupsOf sends).length).map (packetAt start (groupsOf sends))).flatMap
        (fun packet => chunks Ts.packetLen packet.payload) = chunks Ts.packetLen stream := by
  have each : (List.range (groupsOf sends).length).map
      (fun index => (packetAt start (groupsOf sends) index).payload) =
        (groupsOf sends).map Prod.fst := by
    apply List.ext_getElem
    · simp
    · intro index _ inside
      have below : index < (groupsOf sends).length := by simpa using inside
      simp [packetAt, List.getD_eq_getElem?_getD, List.getElem?_eq_getElem below]
  rw [← packets_of_groups sends stream sent, ← each, List.flatMap_map, List.flatMap_map]

/-- A new session, to which every datagram of a cast comes within the window. -/
structure Hears (s : Session) (events : List SessionEvent) (datagrams : List (List UInt8))
    (order : List Nat) : Prop where
  reorder : s.reorder = .new reorderWindow
  demux : s.demux = .new
  came : s.heard events = order.map (fun index => datagrams.getD index [])
  arrives : Arrives reorderWindow datagrams.length order
  near : NoneFarAhead order

theorem hears_stream (p : Packetizer) (sends : List (List UInt8 × UInt32)) (stream : List UInt8)
    (sent : Sends stream sends) (s : Session) (events : List SessionEvent) (order : List Nat)
    (hears : Hears s events (p.pushAll sends).2 order) :
    (outputs Session.step s events).flatten.filterMap SinkEvent.media =
        (Ts.Demux.new.pushAll (chunks Ts.packetLen stream)).2 ∧
      (final Session.step s events).demux =
        (Ts.Demux.new.pushAll (chunks Ts.packetLen stream)).1 ∧
      (final Session.step s events).reorder.lost = 0 := by
  have came := hears.came
  have arrives := hears.arrives
  have count : (stamped p (groupsOf sends)).length = (groupsOf sends).length := List.length_mapIdx
  rw [Rtp.pushAll_stamped] at came arrives
  rw [count] at arrives
  have parsed : (s.heard events).map Rtp.parse =
      (order.map (packetAt p.sequence (groupsOf sends))).map some := by
    rw [came, List.map_map, List.map_map]
    apply List.map_congr_left
    intro index member
    exact Rtp.parse_stamped p _ index ((arrives.complete index).mp member)
  have typed : ∀ packet ∈ order.map (packetAt p.sequence (groupsOf sends)),
      packet.payloadType = ptMp2t := by
    intro packet member
    obtain ⟨index, -, rfl⟩ := List.mem_map.mp member
    rfl
  obtain ⟨window, stream⟩ := Session.run_path events s _ parsed typed
  have media := Session.run_media events s _ parsed typed
  obtain ⟨state, handed⟩ := Rtp.arrived_window reorderWindow (groupsOf sends).length p.sequence
    (packetAt p.sequence (groupsOf sends)) (fun _ => rfl) order order [] arrives hears.near
    (List.append_nil order).symm
  have all := Castr.Lib.Resequence.holds_all order _ (groupsOf sends).length
    (Rtp.sequenced_holds order) arrives.complete
  rw [hears.reorder, hears.demux, handed, all, handed_chunks p.sequence sends _ sent]
    at media stream
  refine ⟨media, stream, ?_⟩
  rw [window, hears.reorder, state, all]
  split <;> rfl

/-- Whatever the sender casts and however its datagrams change places within the window, the
display is given every unit but the last as it was captured, no loss is ever counted, and the sound
is given in its frames. -/
theorem delivered (ssrc : UInt32) (units : List Media) (s : Session) (events : List SessionEvent)
    (order : List Nat)
    (hears : Hears s events (outputs Outgoing.step (.new ssrc) units).flatten order)
    (fair : ∀ unit ∈ units, ∀ push ∈ unit.op.videos,
      push.1 ≠ [] ∧ push.2.toNat * 9 / 100 < 2 ^ 33) :
    let emitted := (outputs Session.step s events).flatten.filterMap SinkEvent.media
    List.Forall₂ Close (Ts.videosOf emitted)
        (units.flatMap (fun unit => unit.op.videos)).dropLast ∧
      (∃ frames : List (List Int16),
        (∀ frame ∈ frames, frame.length = Source.Lpcm.samplesPerFrame) ∧
        Ts.audiosOf emitted = frames.map Source.Lpcm.frame ∧
        frames.flatten ++ (final Outgoing.step (.new ssrc) units).muxer.audioPending =
          units.flatMap (fun unit => unit.op.samples)) ∧
      ∀ front back, events = front ++ back → (final Session.step s front).lost = 0 := by
  obtain ⟨sent, last⟩ := Castr.Sender.Miracast.run_sends units (.new ssrc)
  obtain ⟨blocks, frames, muxes, content⟩ :=
    run_muxes (units.map Media.op) .new (fun _ => 0) (fun _ => rfl)
  have carry := Ts.emits_chunks _ _ muxes.emits
  have starts : blocks = [] ∨ ∃ profile level rest, blocks = .tables profile level :: rest :=
    (muxes.starts rfl).imp_left And.left
  rw [List.flatMap_map, List.flatMap_map] at content
  have each : ∀ push ∈ units.flatMap (fun unit => unit.op.videos),
      push.1 ≠ [] ∧ push.2.toNat * 9 / 100 < 2 ^ 33 := by
    intro push member
    obtain ⟨unit, inside, pushed⟩ := List.mem_flatMap.mp member
    exact fair unit inside push pushed
  have nonempty (cut : Ts.Cut) (member : cut ∈ Ts.cutsOf .video blocks) : cut.data ≠ [] := by
    obtain ⟨push, inside, same⟩ := forall₂_mem _ _ content.video cut member
    rw [same.1]
    exact (each push inside).1
  obtain ⟨videos, audios, errors⟩ := Ts.take_muxed blocks starts nonempty
  have whole : Sends (outputs Muxer.step .new (units.map Media.op)).flatten
      (sendsOf .new units) :=
    ⟨Castr.Sender.Miracast.sends_stream units .new,
      Castr.Sender.Miracast.sends_whole units .new (fun _ => 0) (fun _ => rfl)⟩
  rw [sent] at hears
  obtain ⟨media, demux, kept⟩ := hears_stream (.new ssrc) (sendsOf .new units) _ whole s events
    order hears
  rw [Ts.pushAll_carries _ _ _ carry] at media demux
  dsimp only
  rw [media, videos, audios, last]
  refine ⟨forall₂_dropLast _ _ _ (videos_close _ _ content.video
    (fun push member => (each push member).2)), ⟨frames, content.whole, content.audio,
      content.left⟩, ?_⟩
  intro front back split
  have ended : (final Session.step s events).lost = 0 := by
    rw [Session.lost, kept, demux, errors]
  rw [split, final_append] at ended
  have grows := Session.lost_run back (final Session.step s front)
  omega

/-- Three units whose datagrams come with the last two swapped. -/
theorem delivered_swapped :
    let units : List Media := [.play (some 2) none, .video [7] 100, .video [8] 200, .video [9] 300]
    let datagrams := (outputs Outgoing.step (.new 5) units).flatten
    let events := ([0, 2, 1].map (fun index => datagrams.getD index [])).map
      (fun bytes => SessionEvent.datagram bytes 0)
    List.Forall₂ Close
      (Ts.videosOf ((outputs Session.step awake events).flatten.filterMap SinkEvent.media))
      [([7], 100), ([8], 200)] := by
  intro units datagrams events
  have total : datagrams.length = 3 := by decide +kernel
  have complete (index : Nat) : index ∈ [0, 2, 1] ↔ index < 3 := by
    simp only [List.mem_cons, List.not_mem_nil, or_false]
    omega
  have arrives : Arrives reorderWindow 3 [0, 2, 1] := by
    refine ⟨complete, by simp, Rtp.of_splits _ _ (by decide), ?_⟩
    rintro front index back split - next done
    by_contra far
    have three := (complete 3).mp (by simp [split, done 3 (by omega)])
    omega
  have hears : Hears awake events datagrams [0, 2, 1] :=
    ⟨rfl, rfl, Session.heard_datagrams awake rfl _ 0, total ▸ arrives,
      Rtp.noneFarAhead_short _ (by decide)⟩
  exact (delivered 5 units awake events [0, 2, 1] hears (by simp [units, Media.op,
    Muxer.Op.videos])).1

end Castr.Miracast
