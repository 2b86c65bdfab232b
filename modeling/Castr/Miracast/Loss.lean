import Castr.Miracast.Session
import Castr.Miracast.Transparency

/-! Datagrams that are lost on the way: what the window hands on of the others, and what a session
does with them. -/

namespace Castr.Miracast.Rtp

open Castr.Lib.Run

/-- Every number is at most half the circle ahead of the last ones before it. -/
def Near (span : Nat) (got : List Nat) : Prop :=
  ∀ front index back, got = front ++ index :: back →
    ∀ other ∈ front.drop (front.length - span), index ≤ other + 2 ^ 15

theorem near_front (span : Nat) (front back : List Nat) (near : Near span (front ++ back)) :
    Near span front := by
  intro before index after split
  exact near before index (after ++ back) (by rw [split, List.append_assoc, List.cons_append])

section Gaps

variable (window : Nat) (start : UInt16) (sent : Nat → Packet)
  (numbers : ∀ index, (sent index).sequence = numbered start index)

theorem release_front (next : Option UInt16) (lost : Nat) (held : List Packet) :
    ∃ count lost', Reorder.release window next lost held =
        (⟨window, held.drop count,
            ((held.take count).getLast?.map (fun last => last.sequence + 1)).or next, lost'⟩,
          held.take count) ∧
      count ≤ held.length ∧ (held.drop count).length ≤ window ∧
      (next = none → held ≠ [] → 0 < count) := by
  induction held generalizing next lost with
  | nil => exact ⟨0, lost, by simp [Reorder.release], by simp, by simp, by simp⟩
  | cons head rest ih =>
      have released (lost' : Nat) : ∃ count lost'',
          ((Reorder.release window (some (head.sequence + 1)) lost' rest).1,
            head :: (Reorder.release window (some (head.sequence + 1)) lost' rest).2) =
            (⟨window, (head :: rest).drop count, (((head :: rest).take count).getLast?.map
                (fun last => last.sequence + 1)).or next, lost''⟩, (head :: rest).take count) ∧
          count ≤ (head :: rest).length ∧ ((head :: rest).drop count).length ≤ window ∧
          (next = none → head :: rest ≠ [] → 0 < count) := by
        obtain ⟨count, lost'', later, inside, few, -⟩ := ih (some (head.sequence + 1)) lost'
        refine ⟨count + 1, lost'', ?_, by simpa using inside, by simpa using few, by simp⟩
        rw [later]
        cases last : (rest.take count).getLast? with
        | none =>
            have none : rest.take count = [] := List.getLast?_eq_none_iff.mp last
            simp [none]
        | some packet => simp [List.getLast?_cons, last]
      cases next with
      | none => exact released lost
      | some seq =>
          rw [Reorder.release]
          by_cases here : head.sequence = seq
          · rw [if_pos here]
            exact released lost
          · rw [if_neg here]
            by_cases full : window < (head :: rest).length
            · rw [if_pos full]
              exact released _
            · rw [if_neg full]
              exact ⟨0, lost, by simp, by simp, by simpa using full, by simp⟩

theorem drop_pred {α : Type*} {got : List α} {count : Nat} {item : α}
    (member : item ∈ got.drop count) : item ∈ got.drop (count - 1) := by
  rcases Nat.eq_zero_or_pos count with rfl | some
  · exact member
  · have split : count = count - 1 + 1 := by omega
    rw [split, ← List.drop_drop] at member
    exact List.mem_of_mem_drop member

include numbers

theorem insert_last (held : List Nat) (number : Nat)
    (ahead : ∀ other ∈ held, other < number ∧ number ≤ other + 2 ^ 15) (next : Option UInt16)
    (lost : Nat) :
    (⟨window, held.map sent, next, lost⟩ : Reorder).insert (sent number) =
      (held ++ [number]).map sent := by
  have none : (held.map sent).findIdx (fun h => seqGe h.sequence (sent number).sequence) =
      (held.map sent).length := by
    apply List.findIdx_eq_length_of_false
    intro packet member
    obtain ⟨other, inside, rfl⟩ := List.mem_map.mp member
    rw [numbers, numbers]
    exact seqGe_behind start other number (ahead other inside).1 (ahead other inside).2
  rw [Reorder.insert, none, List.insertIdx_length_self, List.map_append, List.map_singleton]

def handedOn (got : List Nat) (count lost : Nat) : Reorder where
  window := window
  held := (got.drop count).map sent
  next := (got.take count).getLast?.map (fun last => numbered start (last + 1))
  lost := lost

theorem fresh_handedOn (got : List Nat) (count lost number : Nat) (inside : count ≤ got.length)
    (below : ∀ other ∈ got, other < number)
    (recent : ∀ other ∈ got.drop (count - 1), number ≤ other + 2 ^ 15) :
    (handedOn window start sent got count lost).stale (sent number).sequence = false := by
  have ahead : ((got.take count).getLast?.map (fun last => numbered start (last + 1))).any
      (fun next => !seqGe (sent number).sequence next) = false := by
    cases last : (got.take count).getLast? with
    | none => rfl
    | some latest =>
        have handed := List.mem_of_getLast? last
        have less := below latest (List.mem_of_mem_take handed)
        have some : 0 < count := by
          rcases Nat.eq_zero_or_pos count with rfl | some
          · simp at handed
          · exact some
        have close : number ≤ latest + 2 ^ 15 := by
          apply recent
          have place := last
          rw [List.getLast?_eq_getElem?, List.length_take, Nat.min_eq_left inside,
            List.getElem?_take_of_lt (by omega)] at place
          rw [← Nat.add_zero (count - 1), ← List.getElem?_drop] at place
          exact List.mem_of_getElem? place
        have here := (seqGe_near start number (latest + 1) (by omega) (by omega)).mpr less
        simp [numbers, here]
  have apart : ((got.drop count).map sent).any (fun h => h.sequence = (sent number).sequence) =
      false := by
    rw [List.any_map, List.any_eq_false]
    intro other member
    have less := below other (List.mem_of_mem_drop member)
    have close := recent other (drop_pred member)
    have differs := numbered_ne start other number less (by omega)
    simpa [numbers] using differs
  rw [Reorder.stale]
  show (_ || _) = false
  rw [Bool.or_eq_false_iff]
  exact ⟨ahead, apart⟩

/-- One datagram more, ahead of all before it: it goes behind what is held. -/
theorem push_handedOn (got : List Nat) (count lost number : Nat) (inside : count ≤ got.length)
    (begun : got ≠ [] → 0 < count) (few : (got.drop count).length ≤ window)
    (sorted : (got ++ [number]).Pairwise (· < ·))
    (near : ∀ other ∈ got.drop (got.length - (window + 1)), number ≤ other + 2 ^ 15) :
    ∃ more lost', (handedOn window start sent got count lost).push (sent number) =
        (handedOn window start sent (got ++ [number]) (count + more) lost',
          ((got.drop count ++ [number]).take more).map sent) ∧
      count + more ≤ (got ++ [number]).length ∧ 0 < count + more ∧
      ((got ++ [number]).drop (count + more)).length ≤ window := by
  have before := List.pairwise_append.mp sorted
  have below (other : Nat) (member : other ∈ got) : other < number :=
    before.2.2 other member number (by simp)
  have recent (other : Nat) (member : other ∈ got.drop (count - 1)) : number ≤ other + 2 ^ 15 := by
    apply near
    have split :
        count - 1 = got.length - (window + 1) + (count - 1 - (got.length - (window + 1))) := by
      rw [List.length_drop] at few
      omega
    rw [split, ← List.drop_drop] at member
    exact List.mem_of_mem_drop member
  have held (other : Nat) (member : other ∈ got.drop count) :
      other < number ∧ number ≤ other + 2 ^ 15 :=
    ⟨below other (List.mem_of_mem_drop member), recent other (drop_pred member)⟩
  have fresh := fresh_handedOn window start sent numbers got count lost number inside below recent
  have inserted := insert_last window start sent numbers (got.drop count) number held
    ((got.take count).getLast?.map (fun last => numbered start (last + 1))) lost
  obtain ⟨more, lost', released, fits, rest, least⟩ := release_front window
    ((got.take count).getLast?.map (fun last => numbered start (last + 1))) lost
    ((got.drop count ++ [number]).map sent)
  have front : (got ++ [number]).take (count + more) =
      got.take count ++ (got.drop count ++ [number]).take more := by
    rw [List.take_add, List.take_append_of_le_length inside, List.drop_append_of_le_length inside]
  have back : (got ++ [number]).drop (count + more) = (got.drop count ++ [number]).drop more := by
    rw [← List.drop_drop, List.drop_append_of_le_length inside]
  refine ⟨more, lost', ?_, ?_, ?_, ?_⟩
  · rw [Reorder.push, fresh]
    show Reorder.release window _ lost ((handedOn window start sent got count lost).insert
      (sent number)) = _
    rw [handedOn, inserted, released, handedOn, front, back, List.getLast?_append]
    rw [← List.map_take, ← List.map_drop, List.getLast?_map]
    cases ((got.drop count ++ [number]).take more).getLast? with
    | none => simp
    | some latest => simp [numbers, numbered_succ]
  · rw [List.length_map, List.length_append, List.length_drop] at fits
    rw [List.length_append]
    simp at fits ⊢
    omega
  · rcases Nat.eq_zero_or_pos count with rfl | some
    · have empty : got = [] := by
        by_contra any
        exact absurd (begun any) (Nat.lt_irrefl 0)
      have waits := least (by simp [empty]) (by simp)
      omega
    · omega
  · rw [back]
    rwa [← List.map_drop, List.length_map] at rest

theorem handed_front (got : List Nat) (sorted : got.Pairwise (· < ·))
    (near : Near (window + 1) got) :
    ∃ count lost, final Reorder.push (.new window) (got.map sent) =
        handedOn window start sent got count lost ∧
      (outputs Reorder.push (.new window) (got.map sent)).flatten = (got.take count).map sent ∧
      count ≤ got.length ∧ (got ≠ [] → 0 < count) ∧ (got.drop count).length ≤ window := by
  induction got using List.reverseRecOn with
  | nil => exact ⟨0, 0, rfl, rfl, le_rfl, by simp, by simp⟩
  | append_singleton got number ih =>
      have before := List.pairwise_append.mp sorted
      obtain ⟨count, lost, state, handed, inside, begun, few⟩ :=
        ih before.1 (near_front (window + 1) got [number] near)
      obtain ⟨more, lost', pushed, fits, some, rest⟩ :=
        push_handedOn window start sent numbers got count lost number inside begun few sorted
          (near got number [] rfl)
      refine ⟨count + more, lost', ?_, ?_, fits, fun _ => some, rest⟩
      · rw [List.map_append, List.map_singleton, final_snoc, state, pushed]
      · rw [List.map_append, List.map_singleton, outputs_snoc, List.flatten_append,
          List.flatten_singleton, handed, state, pushed, List.take_add,
          List.take_append_of_le_length inside, List.drop_append_of_le_length inside,
          List.map_append]

end Gaps

end Castr.Miracast.Rtp

namespace Castr.Miracast

open Castr.Lib.Bytes (chunks)
open Castr.Lib.Run

theorem Ts.pushAll_append (d : Ts.Demux) (front back : List (List UInt8)) :
    d.pushAll (front ++ back) = (((d.pushAll front).1.pushAll back).1,
      (d.pushAll front).2 ++ ((d.pushAll front).1.pushAll back).2) := by
  induction front generalizing d with
  | nil => rfl
  | cons packet packets ih => rw [List.cons_append, Demux.pushAll, ih, Demux.pushAll,
      List.append_assoc]

def SinkEvent.media : SinkEvent → Option Ts.AccessUnit
  | .video data ptsUs => some (.video data ptsUs)
  | .audio data ptsUs => some (.audio data ptsUs)
  | _ => none

theorem media_ofUnit (units : List Ts.AccessUnit) :
    (units.map SinkEvent.ofUnit).filterMap SinkEvent.media = units := by
  induction units with
  | nil => rfl
  | cons unit units ih => cases unit <;> exact congrArg (_ :: ·) ih

namespace Session

def heard (s : Session) : List SessionEvent → List (List UInt8)
  | [] => []
  | event :: events =>
      (match event with
        | .datagram bytes _ => if s.playing then [bytes] else []
        | _ => []) ++ (s.step event).1.heard events

structure Aside (s : Session) (result : Session × List SinkEvent) : Prop where
  reorder : result.1.reorder = s.reorder
  demux : result.1.demux = s.demux
  silent : result.2.filterMap SinkEvent.media = []

theorem aside_refl (s : Session) : Aside s (s, []) := ⟨rfl, rfl, rfl⟩

theorem aside_trans (s : Session) (first second : Session × List SinkEvent) (aside : Aside s first)
    (more : Aside first.1 second) : Aside s (second.1, first.2 ++ second.2) := by
  refine ⟨more.reorder.trans aside.reorder, more.demux.trans aside.demux, ?_⟩
  rw [List.filterMap_append, aside.silent, more.silent, List.append_nil]

theorem aside_apply (s : Session) (actions : List Action) : Aside s (s.apply actions) := by
  induction actions generalizing s with
  | nil => exact aside_refl s
  | cons action actions ih =>
      apply aside_trans s (s.applyOne action) _ _ (ih (s.applyOne action).1)
      cases action with
      | play =>
          refine ⟨rfl, rfl, ?_⟩
          rw [applyOne]
          cases s.negotiation.chosen <;> rfl
      | _ => exact ⟨rfl, rfl, rfl⟩

theorem aside_drive (s : Session) (result : Negotiation × List Action) :
    Aside s (s.drive result) := by
  have applied := aside_apply { s with negotiation := result.1 } result.2
  exact ⟨applied.reorder, applied.demux, applied.silent⟩

theorem aside_drain (now fuel : Nat) (s : Session) : Aside s (drain now fuel s) := by
  induction fuel generalizing s with
  | zero => exact aside_refl s
  | succ fuel ih =>
      rw [drain]
      split
      · exact aside_refl s
      · rename_i m used _
        have driven := aside_drive { s with rtspBuf := s.rtspBuf.drop used }
          (s.negotiation.onMessageAt m now)
        exact aside_trans s _ _ ⟨driven.reorder, driven.demux, driven.silent⟩ (ih _)
      · exact ⟨rfl, rfl, rfl⟩

theorem aside_checkLoss (s : Session) (lost now : Nat) : Aside s (s.checkLoss lost now) := by
  rw [checkLoss]
  split
  · have driven := aside_drive { s with lostAtLastCheck := lost } (s.negotiation.requestIdr now)
    exact ⟨driven.reorder, driven.demux, driven.silent⟩
  · exact aside_refl s

theorem aside_sampleLadder (s : Session) (lost now : Nat) : Aside s (s.sampleLadder lost now) := by
  rw [sampleLadder]
  split
  · rename_i kbps _
    have driven := aside_drive { s with ladder := (s.ladder.sample lost now).1 }
      (s.negotiation.requestBitrate kbps)
    exact ⟨driven.reorder, driven.demux, driven.silent⟩
  · exact ⟨rfl, rfl, rfl⟩

theorem aside_tick (s : Session) (now : Nat) : Aside s (s.tick now) := by
  rw [tick]
  split
  · exact ⟨rfl, rfl, rfl⟩
  · exact aside_trans s _ _ (aside_sampleLadder s s.lost now) (aside_drive _ _)

theorem aside_step (s : Session) (event : SessionEvent) (unheard : s.heard [event] = []) :
    Aside s (s.step event) := by
  cases event with
  | rtspBytes bytes now =>
      have drained := aside_drain now (s.rtspBuf ++ bytes).length
        { s with rtspBuf := s.rtspBuf ++ bytes }
      exact ⟨drained.reorder, drained.demux, drained.silent⟩
  | datagram bytes now =>
      have idle : ¬ s.playing = true := by
        intro playing
        simp [heard, playing] at unheard
      rw [step, onRtpDatagramAt, if_neg idle]
      exact aside_refl s
  | tick now => exact aside_tick s now
  | decodeError now => exact aside_drive s _

theorem datagram_media (s : Session) (bytes : List UInt8) (now : Nat) (packet : Rtp.Packet)
    (playing : s.playing = true) (parsed : Rtp.parse bytes = some packet)
    (typed : packet.payloadType = ptMp2t) :
    let pushed := s.reorder.push packet
    let fed := s.demux.pushAll (pushed.2.flatMap (fun p => chunks Ts.packetLen p.payload))
    (s.step (.datagram bytes now)).1.reorder = pushed.1 ∧
      (s.step (.datagram bytes now)).1.demux = fed.1 ∧
      (s.step (.datagram bytes now)).2.filterMap SinkEvent.media = fed.2 := by
  have known : ¬ packet.payloadType ≠ ptMp2t := not_not.mpr typed
  simp only [step, onRtpDatagramAt, if_pos playing, parsed, if_neg known]
  have checked := aside_checkLoss (s.takeMedia packet now).1 (s.takeMedia packet now).1.lost now
  have sampled := aside_sampleLadder
    ((s.takeMedia packet now).1.checkLoss (s.takeMedia packet now).1.lost now).1
    (s.takeMedia packet now).1.lost now
  refine ⟨sampled.reorder.trans checked.reorder, sampled.demux.trans checked.demux, ?_⟩
  rw [List.filterMap_append, List.filterMap_append, checked.silent, sampled.silent,
    List.append_nil, List.append_nil]
  exact media_ofUnit _

theorem playing_drive (s : Session) (result : Negotiation × List Action)
    (sends : ∀ action ∈ result.2, ∃ m, action = .send m) :
    (s.drive result).1.playing = s.playing := by
  obtain ⟨neg, actions⟩ := result
  show ({ s with negotiation := neg }.apply actions).1.playing = s.playing
  generalize next : ({ s with negotiation := neg } : Session) = begun
  have same : begun.playing = s.playing := by rw [← next]
  clear next
  induction actions generalizing begun with
  | nil => exact same
  | cons action actions ih =>
      obtain ⟨first, rest⟩ := List.forall_mem_cons.mp sends
      obtain ⟨m, rfl⟩ := first
      exact ih rest begun same

theorem playing_datagram (s : Session) (bytes : List UInt8) (now : Nat) :
    (s.step (.datagram bytes now)).1.playing = s.playing := by
  have checked (s : Session) (lost : Nat) : (s.checkLoss lost now).1.playing = s.playing := by
    rw [checkLoss]
    split
    · apply playing_drive
      rw [Negotiation.requestIdr]
      split <;> simp
    · rfl
  have sampled (s : Session) (lost : Nat) : (s.sampleLadder lost now).1.playing = s.playing := by
    rw [sampleLadder]
    split
    · apply playing_drive
      rw [Negotiation.requestBitrate]
      split <;> simp
    · rfl
  rw [step, onRtpDatagramAt]
  split
  · split
    · rfl
    · split
      · rfl
      · exact (sampled _ _).trans (checked _ _)
  · rfl

theorem heard_datagrams (s : Session) (playing : s.playing = true) (datagrams : List (List UInt8))
    (now : Nat) : s.heard (datagrams.map (fun bytes => .datagram bytes now)) = datagrams := by
  induction datagrams generalizing s with
  | nil => rfl
  | cons bytes datagrams ih =>
      have still := (playing_datagram s bytes now).trans playing
      rw [List.map_cons, heard, ih _ still]
      simp [playing]

theorem run_media (events : List SessionEvent) (s : Session) (packets : List Rtp.Packet)
    (parsed : (s.heard events).map Rtp.parse = packets.map some)
    (typed : ∀ packet ∈ packets, packet.payloadType = ptMp2t) :
    (outputs step s events).flatten.filterMap SinkEvent.media =
      (s.demux.pushAll ((outputs Rtp.Reorder.push s.reorder packets).flatten.flatMap
        (fun p => chunks Ts.packetLen p.payload))).2 := by
  induction events generalizing s packets with
  | nil =>
      have none : packets = [] := by simpa [heard] using parsed.symm
      subst none
      rfl
  | cons event events ih =>
      rw [outputs_cons, List.flatten_cons, List.filterMap_append]
      have first : s.heard (event :: events) = s.heard [event] ++ (s.step event).1.heard
          events := by
        simp [heard]
      rw [first] at parsed
      by_cases unheard : s.heard [event] = []
      · have aside := aside_step s event unheard
        rw [unheard, List.nil_append] at parsed
        rw [aside.silent, List.nil_append, ih _ packets parsed typed, aside.reorder, aside.demux]
      · cases event with
        | datagram bytes now =>
            by_cases playing : s.playing = true
            · have here : s.heard [.datagram bytes now] = [bytes] := by simp [heard, playing]
              rw [here] at parsed
              cases packets with
              | nil => simp at parsed
              | cons packet rest =>
                  obtain ⟨now_, later⟩ := List.cons.inj parsed
                  obtain ⟨reorder, demux, media⟩ := datagram_media s bytes now packet playing now_
                    (typed packet List.mem_cons_self)
                  rw [media, ih _ rest later
                    (fun other member => typed other (List.mem_cons_of_mem packet member)),
                    reorder, demux, outputs_cons, List.flatten_cons, List.flatMap_append,
                    Ts.pushAll_append]
            · exact absurd (by simp [heard, playing]) unheard
        | _ => exact absurd rfl unheard

end Session

end Castr.Miracast
