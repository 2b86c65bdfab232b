import Castr.Miracast.Ladder
import Castr.Miracast.Loss
import Castr.Miracast.Texts

/-! What a sink's session asks its source for: keyframes when something was lost, and less or
more when much was. -/

namespace Castr.Miracast

open Castr.Lib.Run
open Castr.Lib.Text

def asksIdr (m : Message) : Bool :=
  decide (m.method = some "SET_PARAMETER") && decide (m.body = "wfd_idr_request\r\n")

/-- The ceiling a request asks for, as a source reads it. -/
def ceiling (m : Message) : Option UInt32 :=
  if m.method = some "SET_PARAMETER" then parseMaxBitrateKbps m.body else none

def SinkEvent.text : SinkEvent → Option String
  | .sendRtsp text => some text
  | _ => none

def Plain (m : Message) : Prop := m.method ≠ some "SET_PARAMETER"

theorem plain_asksIdr (m : Message) (plain : Plain m) : asksIdr m = false := by
  unfold asksIdr
  rw [decide_eq_false plain, Bool.false_and]

theorem plain_ceiling (m : Message) (plain : Plain m) : ceiling m = none := if_neg plain

@[simp] theorem body_withSession (neg : Negotiation) (m : Message) :
    (neg.withSession m).body = m.body := by
  unfold Negotiation.withSession
  split <;> rfl

theorem asksIdr_idrRequest (neg : Negotiation) : asksIdr neg.idrRequest = true := by
  have body : neg.idrRequest.body = "wfd_idr_request\r\n" := body_withSession neg _
  simp [asksIdr, body]

theorem ceiling_idrRequest (neg : Negotiation) : ceiling neg.idrRequest = none := by
  have body : neg.idrRequest.body = "wfd_idr_request\r\n" := body_withSession neg _
  rw [ceiling, if_pos (by simp), body]
  decide

theorem body_bitrateRequest (neg : Negotiation) (kbps : UInt32) :
    (neg.bitrateRequest kbps).body = line "microsoft_max_bitrate" (toString kbps.toNat) := by
  have named : "microsoft_max_bitrate: " = "microsoft_max_bitrate" ++ ": " := by decide
  rw [line, ← named]
  exact body_withSession neg _

theorem asksIdr_bitrateRequest (neg : Negotiation) (kbps : UInt32) :
    asksIdr (neg.bitrateRequest kbps) = false := by
  have other : (neg.bitrateRequest kbps).body ≠ "wfd_idr_request\r\n" := by
    intro same
    have front : "microsoft_max_bitrate".toList = 'm' :: "icrosoft_max_bitrate".toList := by decide
    have other : "wfd_idr_request\r\n".toList = 'w' :: "fd_idr_request\r\n".toList := by decide
    have chars := congrArg String.toList same
    rw [body_bitrateRequest, line_toList, front, other] at chars
    exact absurd (List.cons.inj chars).1 (by decide)
  simp [asksIdr, other]

theorem ceiling_bitrateRequest (neg : Negotiation) (kbps : UInt32) :
    ceiling (neg.bitrateRequest kbps) = some kbps := by
  have digits : (toString kbps.toNat).toList = decimal kbps.toNat := decimal_toString _
  have name : '\n' ∉ "microsoft_max_bitrate".toList ∧ ':' ∉ "microsoft_max_bitrate".toList := by
    decide
  have whole : '\n' ∉ "microsoft_max_bitrate".toList ++ ':' :: ' ' :: decimal kbps.toNat := by
    simp only [List.mem_append, List.mem_cons, not_or]
    exact ⟨name.1, by decide, by decide, decimal_line _⟩
  have spelled : sameIgnoringCase (trim "microsoft_max_bitrate".toList)
      "microsoft_max_bitrate".toList = true := by decide
  have value : number 10 (2 ^ 32) (trim (' ' :: decimal kbps.toNat)) = some kbps.toNat := by
    rw [trim_space ' ' _ (by decide), trim_decimal]
    exact number_decimal _ _ kbps.toNat_lt
  rw [ceiling, if_pos (by simp), body_bitrateRequest, parseMaxBitrateKbps, line_toList, digits]
  have text : "microsoft_max_bitrate".toList ++ ':' :: ' ' :: decimal kbps.toNat ++ ['\r', '\n'] =
      ("microsoft_max_bitrate".toList ++ ':' :: ' ' :: decimal kbps.toNat) ++ '\r' :: '\n' :: [] :=
    rfl
  rw [text, lines_cons _ _ whole, maxBitrateOf, splitOnce_append ':' _ _ name.2]
  simp only [spelled, if_true, value, Option.map_some, UInt32.ofNat_toNat]

theorem plain_onMessageAt (neg : Negotiation) (m : Message) (now : Nat) :
    ∀ out ∈ sent (neg.onMessageAt m now).2, Plain out := by
  have branch := Negotiation.messaged neg m now
  generalize neg.onMessageAt m now = result at branch ⊢
  rcases branch with ⟨method, asked⟩ | ⟨status, answered⟩
  · cases asked <;> simp [sent, Action.message, Plain]
  · cases answered <;> simp [sent, Action.message, Plain]

theorem plain_tick (neg : Negotiation) (now : Nat) :
    ∀ out ∈ sent (neg.tick now).2, Plain out := by
  have branch := Negotiation.ticked neg now
  generalize neg.tick now = result at branch
  cases branch <;> simp [sent, Action.message, Plain]

theorem sent_requestIdr (neg : Negotiation) (now : Nat) :
    sent (neg.requestIdr now).2 = if neg.idrTooSoon now then [] else [neg.idrRequest] := by
  unfold Negotiation.requestIdr
  split <;> rfl

theorem sent_requestBitrate (neg : Negotiation) (kbps : UInt32) :
    sent (neg.requestBitrate kbps).2 =
      if neg.state = .playing then [neg.bitrateRequest kbps] else [] := by
  unfold Negotiation.requestBitrate
  split <;> rfl

theorem lastIdr_requestIdr (neg : Negotiation) (now : Nat) :
    (neg.requestIdr now).1.lastIdr = if neg.idrTooSoon now then neg.lastIdr else some now := by
  unfold Negotiation.requestIdr
  split <;> rfl

theorem state_requestIdr (neg : Negotiation) (now : Nat) :
    (neg.requestIdr now).1.state = neg.state := by
  unfold Negotiation.requestIdr
  split <;> rfl

theorem lastIdr_requestBitrate (neg : Negotiation) (kbps : UInt32) :
    (neg.requestBitrate kbps).1.lastIdr = neg.lastIdr := by
  unfold Negotiation.requestBitrate
  split <;> rfl

theorem lastIdr_tick (neg : Negotiation) (now : Nat) : (neg.tick now).1.lastIdr = neg.lastIdr := by
  have branch := Negotiation.ticked neg now
  generalize neg.tick now = result at branch
  cases branch <;> rfl

theorem lastIdr_onMessageAt (neg : Negotiation) (m : Message) (now : Nat) :
    (neg.onMessageAt m now).1.lastIdr = neg.lastIdr := by
  have branch := Negotiation.messaged neg m now
  generalize neg.onMessageAt m now = result at branch ⊢
  rcases branch with ⟨method, asked⟩ | ⟨status, answered⟩
  · cases asked <;> rfl
  · cases answered <;> rfl

namespace Session

def drainSends (now : Nat) : Nat → Session → List Message
  | 0, _ => []
  | fuel + 1, s =>
      match parse s.rtspBuf with
      | .ok (some (m, used)) =>
          sent (s.negotiation.onMessageAt m now).2 ++
            drainSends now fuel ({ s with rtspBuf := s.rtspBuf.drop used }.drive
              (s.negotiation.onMessageAt m now)).1
      | _ => []

def idrSends (s : Session) (lost now : Nat) : List Message :=
  if s.lostAtLastCheck < lost then sent (s.negotiation.requestIdr now).2 else []

def ladderSends (s : Session) (lost now : Nat) : List Message :=
  match (s.ladder.sample lost now).2 with
  | some kbps => sent (s.negotiation.requestBitrate kbps).2
  | none => []

def packetOf (s : Session) (bytes : List UInt8) : Option Rtp.Packet :=
  if s.playing then (Rtp.parse bytes).filter (fun packet => packet.payloadType = ptMp2t) else none

def silentAt (s : Session) (now : Nat) : Bool :=
  s.playing && s.lastMedia.any (fun last => mediaSilence < now - last)

/-- The messages a step sends, where the events have their texts. -/
def sends (s : Session) : SessionEvent → List Message
  | .rtspBytes bytes now =>
      drainSends now (s.rtspBuf ++ bytes).length { s with rtspBuf := s.rtspBuf ++ bytes }
  | .datagram bytes now =>
      match s.packetOf bytes with
      | none => []
      | some packet =>
          let taken := (s.takeMedia packet now).1
          taken.idrSends taken.lost now ++
            (taken.checkLoss taken.lost now).1.ladderSends taken.lost now
  | .tick now =>
      if s.silentAt now then []
      else
        s.ladderSends s.lost now ++
          sent ((s.sampleLadder s.lost now).1.negotiation.tick now).2
  | .decodeError now => sent (s.negotiation.requestIdr now).2

theorem text_apply (s : Session) (actions : List Action) :
    (s.apply actions).2.filterMap SinkEvent.text = (sent actions).map Message.format := by
  induction actions generalizing s with
  | nil => rfl
  | cons action actions ih =>
      have first : (s.applyOne action).2.filterMap SinkEvent.text =
          (sent [action]).map Message.format := by
        cases action with
        | play =>
            rw [applyOne]
            cases s.negotiation.chosen <;> rfl
        | _ => rfl
      rw [apply, List.filterMap_append, first, ih, ← List.map_append, sent, sent, sent,
        ← List.filterMap_append, List.singleton_append]

theorem text_drive (s : Session) (result : Negotiation × List Action) :
    (s.drive result).2.filterMap SinkEvent.text = (sent result.2).map Message.format :=
  text_apply _ result.2

theorem text_drain (now fuel : Nat) (s : Session) :
    (drain now fuel s).2.filterMap SinkEvent.text =
      (drainSends now fuel s).map Message.format := by
  induction fuel generalizing s with
  | zero => rfl
  | succ fuel ih =>
      rw [drain, drainSends]
      split
      · next waits => rw [waits]; rfl
      · next m used found =>
          rw [found]
          dsimp only
          rw [List.filterMap_append, text_drive, ih, List.map_append]
      · next bad => rw [bad]; rfl

theorem text_ofUnit (units : List Ts.AccessUnit) :
    (units.map SinkEvent.ofUnit).filterMap SinkEvent.text = [] := by
  apply List.filterMap_eq_nil_iff.mpr
  intro event member
  obtain ⟨unit, _, rfl⟩ := List.mem_map.mp member
  cases unit <;> rfl

theorem text_checkLoss (s : Session) (lost now : Nat) :
    (s.checkLoss lost now).2.filterMap SinkEvent.text =
      (s.idrSends lost now).map Message.format := by
  unfold checkLoss idrSends
  split
  · exact text_drive _ _
  · rfl

theorem text_sampleLadder (s : Session) (lost now : Nat) :
    (s.sampleLadder lost now).2.filterMap SinkEvent.text =
      (s.ladderSends lost now).map Message.format := by
  unfold sampleLadder ladderSends
  cases answer : (s.ladder.sample lost now).2 with
  | none => simp [answer]
  | some kbps =>
      simp only [answer]
      exact text_drive _ _

theorem datagram_unread (s : Session) (bytes : List UInt8) (now : Nat)
    (unread : s.packetOf bytes = none) : s.step (.datagram bytes now) = (s, []) := by
  unfold packetOf at unread
  simp only [step, onRtpDatagramAt]
  split
  · next playing =>
      rw [if_pos playing] at unread
      split
      · rfl
      · next packet parsed =>
          split
          · rfl
          · next typed => simp [parsed, not_not.mp typed] at unread
  · rfl

theorem datagram_read (s : Session) (bytes : List UInt8) (now : Nat) (packet : Rtp.Packet)
    (read : s.packetOf bytes = some packet) :
    s.step (.datagram bytes now) =
      (let taken := s.takeMedia packet now
       let checked := taken.1.checkLoss taken.1.lost now
       let sampled := checked.1.sampleLadder taken.1.lost now
       (sampled.1, taken.2 ++ checked.2 ++ sampled.2)) := by
  unfold packetOf at read
  split at read
  · next playing =>
      obtain ⟨parsed, typed⟩ := Option.filter_eq_some_iff.mp read
      have known : ¬ packet.payloadType ≠ ptMp2t := not_not.mpr (of_decide_eq_true typed)
      simp only [step, onRtpDatagramAt, if_pos playing, parsed, if_neg known]
  · simp at read

theorem tick_silent (s : Session) (now : Nat) (silent : s.silentAt now = true) :
    s.step (.tick now) = ({ s with playing := false }, [.ended "no media for 2 s"]) := by
  simp only [silentAt, Bool.and_eq_true] at silent
  simp only [step, tick, if_pos silent]

theorem tick_heard (s : Session) (now : Nat) (heard : s.silentAt now = false) :
    s.step (.tick now) =
      (let sampled := s.sampleLadder s.lost now
       let ticked := sampled.1.drive (sampled.1.negotiation.tick now)
       (ticked.1, sampled.2 ++ ticked.2)) := by
  have short : ¬ (s.playing = true ∧
      s.lastMedia.any (fun last => mediaSilence < now - last) = true) := by
    simpa [silentAt] using heard
  simp only [step, tick, if_neg short]

theorem text_step (s : Session) (event : SessionEvent) :
    (s.step event).2.filterMap SinkEvent.text = (s.sends event).map Message.format := by
  cases event with
  | rtspBytes bytes now => exact text_drain now _ _
  | datagram bytes now =>
      cases read : s.packetOf bytes with
      | none => simp [datagram_unread s bytes now read, sends, read]
      | some packet =>
          have media : (s.takeMedia packet now).2.filterMap SinkEvent.text = [] := text_ofUnit _
          simp only [datagram_read s bytes now packet read, sends, read, List.filterMap_append,
            text_checkLoss, text_sampleLadder, List.map_append, media, List.nil_append]
  | tick now =>
      cases heard : s.silentAt now with
      | true => simp [tick_silent s now heard, sends, heard, SinkEvent.text]
      | false =>
          simp only [tick_heard s now heard, sends, heard, Bool.false_eq_true, if_false,
            List.filterMap_append, text_sampleLadder, text_drive, List.map_append]
  | decodeError now => exact text_drive s _

theorem sent_sendRtsp (s : Session) (event : SessionEvent) (m : Message)
    (member : m ∈ s.sends event) : .sendRtsp m.format ∈ (s.step event).2 := by
  have text : m.format ∈ (s.step event).2.filterMap SinkEvent.text := by
    rw [text_step]
    exact List.mem_map_of_mem member
  obtain ⟨out, inside, found⟩ := List.mem_filterMap.mp text
  cases out with
  | sendRtsp written =>
      rw [← Option.some.inj found]
      exact inside
  | _ => cases found

theorem plain_drainSends (now fuel : Nat) (s : Session) :
    ∀ m ∈ drainSends now fuel s, Plain m := by
  induction fuel generalizing s with
  | zero => simp [drainSends]
  | succ fuel ih =>
      rw [drainSends]
      split
      · intro m member
        rcases List.mem_append.mp member with first | later
        · exact plain_onMessageAt _ _ _ m first
        · exact ih _ m later
      · simp

/-- What a session remembers of its losses and of what it asked for. -/
structure Unasked (s next : Session) : Prop where
  counted : next.lostAtLastCheck = s.lostAtLastCheck
  ladder : next.ladder = s.ladder
  lastIdr : next.negotiation.lastIdr = s.negotiation.lastIdr

@[simp] theorem counted_drive (s : Session) (result : Negotiation × List Action) :
    (s.drive result).1.lostAtLastCheck = s.lostAtLastCheck := by
  rw [drive, apply_playing]

@[simp] theorem ladder_drive (s : Session) (result : Negotiation × List Action) :
    (s.drive result).1.ladder = s.ladder := by
  rw [drive, apply_playing]

theorem unasked_drive (s : Session) (result : Negotiation × List Action)
    (lastIdr : result.1.lastIdr = s.negotiation.lastIdr) : Unasked s (s.drive result).1 :=
  ⟨counted_drive s result, ladder_drive s result, by rw [negotiation_drive, lastIdr]⟩

theorem unasked_trans (s middle next : Session) (first : Unasked s middle)
    (second : Unasked middle next) : Unasked s next :=
  ⟨second.counted.trans first.counted, second.ladder.trans first.ladder,
    second.lastIdr.trans first.lastIdr⟩

theorem unasked_drain (now fuel : Nat) (s : Session) : Unasked s (drain now fuel s).1 := by
  induction fuel generalizing s with
  | zero => exact ⟨rfl, rfl, rfl⟩
  | succ fuel ih =>
      rw [drain]
      split
      · exact ⟨rfl, rfl, rfl⟩
      · next m used _ =>
          have driven := unasked_drive { s with rtspBuf := s.rtspBuf.drop used }
            (s.negotiation.onMessageAt m now) (lastIdr_onMessageAt _ m now)
          exact unasked_trans s _ _ ⟨driven.counted, driven.ladder, driven.lastIdr⟩ (ih _)
      · exact ⟨rfl, rfl, rfl⟩

theorem checkLoss_ladder (s : Session) (lost now : Nat) :
    (s.checkLoss lost now).1.ladder = s.ladder := by
  unfold checkLoss
  split
  · rw [ladder_drive]
  · rfl

theorem checkLoss_counted (s : Session) (lost now : Nat) :
    (s.checkLoss lost now).1.lostAtLastCheck = max s.lostAtLastCheck lost := by
  unfold checkLoss
  split
  · next grown => rw [counted_drive, Nat.max_eq_right (Nat.le_of_lt grown)]
  · next level => rw [Nat.max_eq_left (Nat.le_of_not_lt level)]

theorem checkLoss_state (s : Session) (lost now : Nat) :
    (s.checkLoss lost now).1.negotiation.state = s.negotiation.state := by
  unfold checkLoss
  split
  · rw [negotiation_drive, state_requestIdr]
  · rfl

theorem checkLoss_lastIdr (s : Session) (lost now : Nat) :
    (s.checkLoss lost now).1.negotiation.lastIdr =
      if s.lostAtLastCheck < lost ∧ s.negotiation.idrTooSoon now = false then some now
      else s.negotiation.lastIdr := by
  unfold checkLoss
  split
  · next grown =>
      rw [negotiation_drive, lastIdr_requestIdr]
      cases s.negotiation.idrTooSoon now <;> simp [grown]
  · next level => simp [level]

theorem sampleLadder_unasked (s : Session) (lost now : Nat) :
    (s.sampleLadder lost now).1.lostAtLastCheck = s.lostAtLastCheck ∧
      (s.sampleLadder lost now).1.ladder = (s.ladder.sample lost now).1 ∧
      (s.sampleLadder lost now).1.negotiation.lastIdr = s.negotiation.lastIdr := by
  unfold sampleLadder
  dsimp only
  split
  · next kbps _ =>
      have driven := unasked_drive { s with ladder := (s.ladder.sample lost now).1 }
        (s.negotiation.requestBitrate kbps) (lastIdr_requestBitrate _ kbps)
      exact ⟨driven.counted, driven.ladder, driven.lastIdr⟩
  · exact ⟨rfl, rfl, rfl⟩

theorem any_asksIdr_idrSends (s : Session) (lost now : Nat) :
    (s.idrSends lost now).any asksIdr =
      decide (s.lostAtLastCheck < lost ∧ s.negotiation.idrTooSoon now = false) := by
  unfold idrSends
  split
  · next grown =>
      rw [sent_requestIdr]
      cases s.negotiation.idrTooSoon now <;> simp [grown, asksIdr_idrRequest]
  · next level => simp [level]

theorem any_asksIdr_ladderSends (s : Session) (lost now : Nat) :
    (s.ladderSends lost now).any asksIdr = false := by
  unfold ladderSends
  split
  · rw [sent_requestBitrate]
    split <;> simp [asksIdr_bitrateRequest]
  · rfl

theorem ceiling_idrSends (s : Session) (lost now : Nat) :
    (s.idrSends lost now).filterMap ceiling = [] := by
  unfold idrSends
  split
  · rw [sent_requestIdr]
    split <;> simp [ceiling_idrRequest]
  · rfl

theorem ceiling_ladderSends (s : Session) (lost now : Nat) :
    (s.ladderSends lost now).filterMap ceiling =
      if s.negotiation.state = .playing then (s.ladder.sample lost now).2.toList else [] := by
  unfold ladderSends
  cases (s.ladder.sample lost now).2 with
  | none => simp
  | some kbps =>
      dsimp only
      rw [sent_requestBitrate]
      split <;> simp [ceiling_bitrateRequest]

theorem any_asksIdr_plain (messages : List Message) (plain : ∀ m ∈ messages, Plain m) :
    messages.any asksIdr = false :=
  List.any_eq_false.mpr (fun m member => by simp [plain_asksIdr m (plain m member)])

theorem ceiling_plain (messages : List Message) (plain : ∀ m ∈ messages, Plain m) :
    messages.filterMap ceiling = [] :=
  List.filterMap_eq_nil_iff.mpr (fun m member => plain_ceiling m (plain m member))

end Session

end Castr.Miracast
